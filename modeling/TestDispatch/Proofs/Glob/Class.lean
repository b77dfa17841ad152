import TestDispatch.Proofs.Glob.Braces
/-! The class a bracket expression spells, read on its own (`Bracket.ranges?`), and the
tokenizer on a bracket expression: it yields exactly that class, or its failure. -/
namespace TestDispatch.Glob

/-- The ranges a class spells after its first member, which opens the range `r`: a `-` and the
character after it move the end of the open range there (never below its start), a `-` at the
end is a member, and any other character opens a range of its own. -/
def classRanges? : Char × Char → List Char → Except GlobError (List (Char × Char))
  | r, [] => .ok [r]
  | r, ['-'] => .ok [r, ('-', '-')]
  | r, '-' :: d :: rest =>
    if d < r.1 then .error (.invalidRange r.1 d) else classRanges? (r.1, d) rest
  | r, c :: rest => (r :: ·) <$> classRanges? (c, c) rest

namespace Bracket

def negated (b : Bracket) : Bool := b.opening.head? = some '!' || b.opening.head? = some '^'

def body (b : Bracket) : List Char := (if ']' ∈ b.opening then [']'] else []) ++ b.members

/-- The ranges of a bracket expression: its body read as a class. One that runs to the end of
the pattern is unclosed, once its ranges before the end are read. -/
def ranges? (b : Bracket) : Except GlobError (List (Char × Char)) :=
  match b.body with
  | [] => .error .unclosedClass
  | x :: xs =>
    if b.closed then classRanges? (x, x) xs
    else (classRanges? (x, x) xs).bind fun _ => .error .unclosedClass

theorem close_not_mem_body_tail (b : Bracket) {x : Char} {xs : List Char}
    (h : b.body = x :: xs) : ']' ∉ xs := by
  intro hx
  unfold body at h
  split at h
  · obtain ⟨-, rfl⟩ := List.cons.inj h
    exact b.close_not_mem hx
  · rw [List.nil_append] at h
    exact b.close_not_mem (h ▸ List.mem_cons_of_mem x hx)

theorem body_ne_nil (b : Bracket) (hb : b.closed = true) : b.body ≠ [] := by
  unfold body
  split
  · simp
  · simpa using b.member_before_close ‹_› hb

end Bracket

/-- The class parser, once past the first member, reads what `classRanges?` describes up to
the closing `]`. -/
theorem classBody_spells {r : Char × Char} {done : List (Char × Char)} {xs : List Char}
    (hxs : ']' ∉ xs) (rest : List Char) :
    classBody (r :: done) false false (xs ++ ']' :: rest) =
      (classRanges? r xs).map fun rs => (done.reverse ++ rs, rest) := by
  fun_induction classRanges? r xs generalizing done with
  | case1 r => simp [classBody, Except.map]
  | case2 r => simp [classBody, Except.map]
  | case3 r d rest' hlt =>
    have hd : d ≠ ']' := fun h => hxs (by simp [h])
    by_cases hdash : d = '-'
    · subst hdash
      simp [classBody, closeRange, hlt, Except.map]
    · simp [classBody, closeRange, hlt, hd, hdash, Except.map]
  | case4 r d rest' hlt ih =>
    have hd : d ≠ ']' := fun h => hxs (by simp [h])
    have ih' := @ih done fun h => hxs (by simp [h])
    by_cases hdash : d = '-'
    · subst hdash
      simp only [List.cons_append, classBody, closeRange, hlt, if_false]
      simpa using ih'
    · simp only [List.cons_append, classBody, closeRange, hlt, hd, hdash]
      simpa using ih'
  | case5 r c rest' hc₁ hc₂ ih =>
    have hc : c ≠ ']' := fun h => hxs (by simp [h])
    have hdash : c ≠ '-' := by
      rintro rfl
      cases rest' with
      | nil => exact hc₁ rfl rfl
      | cons d ds => exact hc₂ d ds rfl rfl
    have ih' := @ih (r :: done) fun h => hxs (List.mem_cons_of_mem c h)
    simp only [List.cons_append, classBody, hc, hdash, false_and, or_false, if_false,
      Bool.false_eq_true, and_false, ih']
    cases classRanges? (c, c) rest' <;> simp [Except.map]

/-- Without a closing `]`, the class parser fails: at the first range that runs backwards, or
at the end. -/
theorem classBody_unclosed {r : Char × Char} {done : List (Char × Char)} {xs : List Char}
    (hxs : ']' ∉ xs) :
    classBody (r :: done) false false xs =
      (classRanges? r xs).bind fun _ => .error .unclosedClass := by
  fun_induction classRanges? r xs generalizing done with
  | case1 r => simp [classBody, Except.bind]
  | case2 r => simp [classBody, Except.bind]
  | case3 r d rest' hlt =>
    have hd : d ≠ ']' := fun h => hxs (by simp [h])
    by_cases hdash : d = '-'
    · subst hdash
      simp [classBody, closeRange, hlt, Except.bind]
    · simp [classBody, closeRange, hlt, hd, hdash, Except.bind]
  | case4 r d rest' hlt ih =>
    have hd : d ≠ ']' := fun h => hxs (by simp [h])
    have ih' := @ih done fun h => hxs (by simp [h])
    by_cases hdash : d = '-'
    · subst hdash
      simpa [classBody, closeRange, hlt] using ih'
    · simpa [classBody, closeRange, hlt, hd, hdash] using ih'
  | case5 r c rest' hc₁ hc₂ ih =>
    have hc : c ≠ ']' := fun h => hxs (by simp [h])
    have hdash : c ≠ '-' := by
      rintro rfl
      cases rest' with
      | nil => exact hc₁ rfl rfl
      | cons d ds => exact hc₂ d ds rfl rfl
    have ih' := @ih (r :: done) fun h => hxs (List.mem_cons_of_mem c h)
    simp only [classBody, hc, hdash, false_and, or_false, if_false, Bool.false_eq_true,
      and_false, ih']
    cases classRanges? (c, c) rest' <;> rfl

theorem classBody_first (x : Char) (xs : List Char) :
    classBody [] true false (x :: xs) = classBody [(x, x)] false false xs := by
  by_cases hc : x = ']'
  · subst hc
    simp [classBody]
  by_cases hd : x = '-'
  · subst hd
    simp [classBody]
  simp [classBody, hc, hd]

namespace Bracket

variable (b : Bracket) {rest : List Char} (hrest : b.closed = false → rest = [])
include hrest

theorem classStart_text :
    classStart (b.opening ++ b.members ++ b.closing ++ rest) =
      (b.negated, b.body ++ b.closing ++ rest) := by
  obtain ⟨opening, members, closed, hopen, hm, hclose, hneg⟩ := b
  simp only [bracketOpenings, List.mem_cons, List.not_mem_nil, or_false] at hopen
  rcases hopen with rfl | rfl | rfl | rfl | rfl | rfl
  · -- no opening: what follows starts with a member that is no mark, or ends the pattern
    obtain ⟨hn₁, hn₂⟩ := hneg rfl
    cases members with
    | nil =>
      cases closed with
      | false => simp [classStart, negated, body, closing, hrest rfl]
      | true => exact absurd rfl (hclose (by simp) rfl)
    | cons c cs =>
      have hc : ¬(c = '!' ∨ c = '^') := by simpa using And.intro hn₁ hn₂
      simp [classStart, negated, body, hc]
  all_goals simp [classStart, negated, body]

theorem classBody_text :
    classBody [] true false (b.body ++ b.closing ++ rest) = b.ranges?.map (·, rest) := by
  cases hbody : b.body with
  | nil =>
    have hb : b.closed = false := by
      cases hc : b.closed
      · rfl
      · exact absurd hbody (b.body_ne_nil hc)
    simp [closing, hb, hrest hb, classBody, ranges?, hbody, Except.map]
  | cons x xs =>
    have hxs := b.close_not_mem_body_tail hbody
    rw [List.cons_append, List.cons_append, classBody_first]
    cases hb : b.closed
    · rw [closing, hb, hrest hb, if_neg (by simp), List.append_nil, List.append_nil,
        classBody_unclosed hxs]
      simp only [ranges?, hbody, hb]
      cases classRanges? (x, x) xs <;> rfl
    · rw [closing, hb, if_pos rfl, List.append_assoc, List.singleton_append,
        classBody_spells hxs]
      simp [ranges?, hbody, hb]

/-- The tokenizer reads a bracket expression as the class it spells, or fails as it does. -/
theorem tokenize_text (acc : List Token) (prev : Option Char) :
    tokenize acc prev (b.text ++ rest) =
      b.ranges?.bind fun rs => tokenize (.charClass b.negated rs :: acc) (some ']') rest := by
  rw [b.text_append, tokenize.eq_3]
  split
  · rename_i ranges rest' h
    rw [b.classStart_text hrest, b.classBody_text hrest] at h
    simp only [b.classStart_text hrest]
    cases hr : b.ranges? with
    | error e => simp [hr, Except.map] at h
    | ok rs =>
      simp only [hr, Except.map, Except.ok.injEq, Prod.mk.injEq] at h
      obtain ⟨rfl, rfl⟩ := h
      rfl
  · rename_i e h
    rw [b.classStart_text hrest, b.classBody_text hrest] at h
    cases hr : b.ranges? with
    | error e' =>
      simp only [hr, Except.map, Except.error.injEq] at h
      rw [h]
      rfl
    | ok rs => simp [hr, Except.map] at h

end Bracket

theorem Bracket.tokenize_text_nil (b : Bracket) (acc : List Token) (prev : Option Char) :
    tokenize acc prev b.text =
      b.ranges?.bind fun rs => tokenize (.charClass b.negated rs :: acc) (some ']') [] := by
  simpa using @Bracket.tokenize_text b [] (fun _ => rfl) acc prev

end TestDispatch.Glob
