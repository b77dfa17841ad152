import TestDispatch.Selection.Filter
import TestDispatch.Proofs.Except
/-! Braces made literal, unit by unit: a pattern reads in exactly one way (`Reads`), and
`literalBraces` writes that reading back with every brace outside a bracket expression escaped. -/
namespace TestDispatch.Glob

def bracketOpenings : List (List Char) := [[], ['!'], ['^'], [']'], ['!', ']'], ['^', ']']]

/-- A bracket expression after its `[`: its opening, its other members (no `]` among them),
and a closing `]` unless it runs to the end of the pattern. The opening holds a negation mark
and a leading `]` whenever the text has them. -/
@[ext]
structure Bracket where
  opening : List Char
  members : List Char
  closed : Bool
  opening_mem : opening ∈ bracketOpenings
  close_not_mem : ']' ∉ members
  member_before_close : ']' ∉ opening → closed = true → members ≠ []
  negation_taken : opening = [] → members.head? ≠ some '!' ∧ members.head? ≠ some '^'

namespace Bracket

def closing (b : Bracket) : List Char := if b.closed then [']'] else []

def text (b : Bracket) : List Char := '[' :: b.opening ++ b.members ++ b.closing

def single (c : Char) (hc : c ≠ ']' ∧ c ≠ '!' ∧ c ≠ '^') : Bracket where
  opening := []
  members := [c]
  closed := true
  opening_mem := by simp [bracketOpenings]
  close_not_mem := by simpa [eq_comm] using hc.1
  member_before_close := by simp
  negation_taken := by simpa using hc.2

end Bracket

inductive PatternUnit
  | bracket (b : Bracket)
  | char (c : Char)

namespace PatternUnit

/-- What `literalBraces` writes for a unit: a bracket expression as it is, a brace in a class of
its own, and any other character as it is. -/
def escape : PatternUnit → List Char
  | bracket b => b.text
  | char c => if c = '{' ∨ c = '}' then ['[', c, ']'] else [c]

def escaped : PatternUnit → PatternUnit
  | bracket b => bracket b
  | char c => if h : c = '{' ∨ c = '}' then
      bracket (Bracket.single c (by rcases h with rfl | rfl <;> decide)) else char c

end PatternUnit

/-- `Reads p us`: the pattern `p` is the units `us` one after another. A `[` always opens a
bracket expression, and only the last one may run to the end of the pattern. -/
inductive Reads : List Char → List PatternUnit → Prop
  | nil : Reads [] []
  | char {c : Char} {cs : List Char} {us : List PatternUnit} :
      c ≠ '[' → Reads cs us → Reads (c :: cs) (.char c :: us)
  | closed {b : Bracket} {rest : List Char} {us : List PatternUnit} :
      b.closed = true → Reads rest us → Reads (b.text ++ rest) (.bracket b :: us)
  | unclosed {b : Bracket} : b.closed = false → Reads b.text [.bracket b]

theorem bracketRest_append {members : List Char} (hm : ']' ∉ members) (rest : List Char) :
    bracketRest (members ++ ']' :: rest) = (members ++ [']'], rest) := by
  induction members with
  | nil => simp [bracketRest]
  | cons c cs ih =>
    have hc : c ≠ ']' := fun h => hm (h ▸ List.mem_cons_self)
    simp [bracketRest, hc, ih fun h => hm (List.mem_cons_of_mem c h)]

theorem bracketRest_of_not_mem {members : List Char} (hm : ']' ∉ members) :
    bracketRest members = (members, []) := by
  induction members with
  | nil => rfl
  | cons c cs ih =>
    have hc : c ≠ ']' := fun h => hm (h ▸ List.mem_cons_self)
    simp [bracketRest, hc, ih fun h => hm (List.mem_cons_of_mem c h)]

theorem bracketRest_cases (l : List Char) :
    (∃ members rest, ']' ∉ members ∧ l = members ++ ']' :: rest) ∨ ']' ∉ l := by
  induction l with
  | nil => exact .inr (List.not_mem_nil)
  | cons c l ih =>
    by_cases hc : c = ']'
    · exact .inl ⟨[], l, List.not_mem_nil, by rw [hc]; rfl⟩
    · rcases ih with ⟨members, rest, hm, rfl⟩ | hl
      · exact .inl ⟨c :: members, rest, by simp [hm, Ne.symm hc], rfl⟩
      · exact .inr (by simp [hl, Ne.symm hc])

theorem bracketOpen_mark {c : Char} (hc : c = '!' ∨ c = '^') (l : List Char) :
    bracketOpen (c :: l) = if l.head? = some ']' then ([c, ']'], l.tail) else ([c], l) := by
  unfold bracketOpen
  simp only [hc, if_true]
  split
  · simp
  · rename_i hne
    rcases l with _ | ⟨d, r⟩
    · simp
    · have hd : d ≠ ']' := fun h => hne r (by rw [h])
      simp [hd]

theorem bracketOpen_plain {l : List Char} (hl : l.head? ≠ some '!' ∧ l.head? ≠ some '^') :
    bracketOpen l = if l.head? = some ']' then ([']'], l.tail) else ([], l) := by
  unfold bracketOpen
  rcases l with _ | ⟨c, r⟩
  · simp
  · have hc : ¬(c = '!' ∨ c = '^') := by simpa using hl
    simp only [hc, if_false]
    split <;> simp_all

namespace Bracket

variable (b : Bracket) {rest : List Char} (hrest : b.closed = false → rest = [])
include hrest

theorem bracketOpen_text :
    bracketOpen (b.opening ++ b.members ++ b.closing ++ rest) =
      (b.opening, b.members ++ b.closing ++ rest) := by
  obtain ⟨opening, members, closed, hopen, hm, hclose, hneg⟩ := b
  simp only [closing] at hrest ⊢
  have hhead : ']' ∉ opening →
      (members ++ (if closed then [']'] else []) ++ rest).head? = members.head? := by
    intro hlead
    cases members with
    | nil =>
      cases closed with
      | false => simp [hrest rfl]
      | true => exact absurd rfl (hclose hlead rfl)
    | cons c cs => rfl
  have hnot : members.head? ≠ some ']' := fun h => hm (List.mem_of_mem_head? h)
  simp only [bracketOpenings, List.mem_cons, List.not_mem_nil, or_false] at hopen
  rcases hopen with rfl | rfl | rfl | rfl | rfl | rfl
  · have h := hhead (by simp)
    rw [List.nil_append, bracketOpen_plain (by rw [h]; exact hneg rfl),
      if_neg (by rw [h]; exact hnot)]
  · have h := hhead (by simp)
    simp only [List.cons_append, List.nil_append]
    rw [bracketOpen_mark (.inl rfl), if_neg (by rw [h]; exact hnot)]
  · have h := hhead (by simp)
    simp only [List.cons_append, List.nil_append]
    rw [bracketOpen_mark (.inr rfl), if_neg (by rw [h]; exact hnot)]
  all_goals simp only [List.cons_append, List.nil_append]
  · rw [bracketOpen_plain (by simp), if_pos (by simp)]
    rfl
  · rw [bracketOpen_mark (.inl rfl), if_pos (by simp)]
    rfl
  · rw [bracketOpen_mark (.inr rfl), if_pos (by simp)]
    rfl

theorem bracketRest_text :
    bracketRest (b.members ++ b.closing ++ rest) = (b.members ++ b.closing, rest) := by
  cases hc : b.closed
  · simp only [closing, hc, hrest hc]
    simpa using bracketRest_of_not_mem b.close_not_mem
  · simpa [closing, hc] using bracketRest_append b.close_not_mem rest

end Bracket

theorem literalBraces_bracket (b : Bracket) {rest : List Char}
    (hrest : b.closed = false → rest = []) :
    literalBraces (b.text ++ rest) = b.text ++ literalBraces rest := by
  have htext : b.text ++ rest = '[' :: (b.opening ++ b.members ++ b.closing ++ rest) := by
    simp [Bracket.text]
  rw [htext, literalBraces.eq_2, if_pos rfl, b.bracketOpen_text hrest, b.bracketRest_text hrest]
  simp [Bracket.text]

/-- After its `[`, the code takes an opening, and then the members: the opening is one a bracket
expression can have, with a negation mark and a leading `]` whenever they are there. -/
theorem bracketOpen_spec (cs : List Char) :
    cs = (bracketOpen cs).1 ++ (bracketOpen cs).2 ∧ (bracketOpen cs).1 ∈ bracketOpenings ∧
      (']' ∉ (bracketOpen cs).1 → (bracketOpen cs).2.head? ≠ some ']') ∧
      ((bracketOpen cs).1 = [] → cs.head? ≠ some '!' ∧ cs.head? ≠ some '^') := by
  by_cases hmark : ∃ c l, cs = c :: l ∧ (c = '!' ∨ c = '^')
  · obtain ⟨c, l, rfl, hc⟩ := hmark
    rw [bracketOpen_mark hc]
    split
    · rename_i hl
      obtain ⟨r, rfl⟩ : ∃ r, l = ']' :: r := by
        rcases l with _ | ⟨d, r⟩
        · cases hl
        · exact ⟨r, by simp_all⟩
      rcases hc with rfl | rfl <;> simp [bracketOpenings]
    · rename_i hl
      rcases hc with rfl | rfl <;> simp [bracketOpenings, hl]
  · have hl : cs.head? ≠ some '!' ∧ cs.head? ≠ some '^' := by
      rcases cs with _ | ⟨c, l⟩
      · simp
      · simp only [List.head?_cons, ne_eq, Option.some.injEq]
        exact ⟨fun h => hmark ⟨c, l, rfl, .inl h⟩, fun h => hmark ⟨c, l, rfl, .inr h⟩⟩
    rw [bracketOpen_plain hl]
    split
    · rename_i hc
      obtain ⟨r, rfl⟩ : ∃ r, cs = ']' :: r := by
        rcases cs with _ | ⟨d, r⟩
        · cases hc
        · exact ⟨r, by simp_all⟩
      simp [bracketOpenings]
    · rename_i hc
      simp [bracketOpenings, hc, hl]

/-- Every `[` opens a bracket expression, closed by the first `]` after its opening or running
to the end. -/
theorem exists_bracket (cs : List Char) :
    ∃ (b : Bracket) (rest : List Char), b.text ++ rest = '[' :: cs ∧
      (b.closed = false → rest = []) := by
  obtain ⟨hsplit, hopen, hlead, hneg⟩ := bracketOpen_spec cs
  generalize bracketOpen cs = o at hsplit hopen hlead hneg
  obtain ⟨opening, after⟩ := o
  subst hsplit
  dsimp only at hopen hlead hneg ⊢
  rcases bracketRest_cases after with ⟨members, rest, hm, rfl⟩ | hm
  · -- closed by the first `]` after the opening
    refine ⟨⟨opening, members, true, hopen, hm, fun hl _ hnil => ?_, fun h0 => ?_⟩,
      rest, ?_, by simp⟩
    · exact hlead hl (by simp [hnil])
    · have hcs := hneg h0
      subst h0
      rcases members with _ | ⟨c, l⟩
      · simp
      · simpa using hcs
    · simp [Bracket.text, Bracket.closing]
  · -- no `]` after the opening: the bracket expression runs to the end
    refine ⟨⟨opening, after, false, hopen, hm, by simp, fun h0 => ?_⟩, [], ?_, fun _ => rfl⟩
    · have hcs := hneg h0
      subst h0
      simpa using hcs
    · simp [Bracket.text, Bracket.closing]

theorem Bracket.eq_of_text_append {b b' : Bracket} {rest rest' : List Char}
    (hrest : b.closed = false → rest = []) (hrest' : b'.closed = false → rest' = [])
    (h : b.text ++ rest = b'.text ++ rest') : b = b' ∧ rest = rest' := by
  have htail : b.opening ++ b.members ++ b.closing ++ rest =
      b'.opening ++ b'.members ++ b'.closing ++ rest' := by
    simpa [Bracket.text] using h
  have hopen := congrArg bracketOpen htail
  rw [b.bracketOpen_text hrest, b'.bracketOpen_text hrest', Prod.mk.injEq] at hopen
  have hmembers := congrArg bracketRest hopen.2
  rw [b.bracketRest_text hrest, b'.bracketRest_text hrest', Prod.mk.injEq] at hmembers
  obtain ⟨hbody, hrest_eq⟩ := hmembers
  -- a `]` closes one of them only if it closes both, as no member is `]`
  have hclosed : b.closed = b'.closed := by
    cases hb : b.closed <;> cases hb' : b'.closed
    · rfl
    · have := congrArg (']' ∈ ·) hbody
      simp [Bracket.closing, hb, hb', b.close_not_mem] at this
    · have := congrArg (']' ∈ ·) hbody
      simp [Bracket.closing, hb, hb', b'.close_not_mem] at this
    · rfl
  have hclosing : b.closing = b'.closing := by simp [Bracket.closing, hclosed]
  rw [hclosing, List.append_cancel_right_eq] at hbody
  exact ⟨Bracket.ext hopen.1 hbody hclosed, hrest_eq⟩

theorem Bracket.text_append (b : Bracket) (rest : List Char) :
    b.text ++ rest = '[' :: (b.opening ++ b.members ++ b.closing ++ rest) := by
  simp [Bracket.text]

theorem Reads.first_unit {p : List Char} {us : List PatternUnit} (h : Reads p us) :
    (p = [] ∧ us = []) ∨
      (∃ c cs vs, c ≠ '[' ∧ p = c :: cs ∧ us = .char c :: vs ∧ Reads cs vs) ∨
      (∃ b rest vs, b.closed = true ∧ p = b.text ++ rest ∧ us = .bracket b :: vs ∧ Reads rest vs) ∨
      (∃ b : Bracket, b.closed = false ∧ p = b.text ++ [] ∧ us = [.bracket b]) := by
  cases h with
  | nil => exact .inl ⟨rfl, rfl⟩
  | char hc h => exact .inr (.inl ⟨_, _, _, hc, rfl, rfl, h⟩)
  | closed hb h => exact .inr (.inr (.inl ⟨_, _, _, hb, rfl, rfl, h⟩))
  | unclosed hb => exact .inr (.inr (.inr ⟨_, hb, by simp, rfl⟩))

/-- A pattern reads in one way only. -/
theorem Reads.unique {p : List Char} {us vs : List PatternUnit} (hu : Reads p us)
    (hv : Reads p vs) : us = vs := by
  induction hu generalizing vs with
  | nil =>
    rcases hv.first_unit with ⟨-, rfl⟩ | ⟨c, cs, _, -, hp, -⟩ | ⟨b, rest, _, -, hp, -⟩ |
      ⟨b, -, hp, -⟩
    · rfl
    all_goals simp [Bracket.text] at hp
  | @char c cs us hc _ ih =>
    rcases hv.first_unit with ⟨hp, -⟩ | ⟨c', cs', vs', -, hp, rfl, hv'⟩ | ⟨b, rest, _, -, hp, -⟩ |
      ⟨b, -, hp, -⟩
    · cases hp
    · obtain ⟨rfl, rfl⟩ := List.cons.inj hp
      rw [ih hv']
    all_goals
      rw [Bracket.text_append] at hp
      exact absurd (List.cons.inj hp).1 hc
  | @closed b rest us hb _ ih =>
    have hrest : b.closed = false → rest = [] := by simp [hb]
    rcases hv.first_unit with ⟨hp, -⟩ | ⟨c, cs, _, hc, hp, -⟩ |
      ⟨b', rest', vs', hb', hp, rfl, hv'⟩ | ⟨b', hb', hp, rfl⟩
    · simp [Bracket.text_append] at hp
    · rw [Bracket.text_append] at hp
      exact absurd (List.cons.inj hp).1.symm hc
    · obtain ⟨rfl, rfl⟩ := Bracket.eq_of_text_append hrest (by simp [hb']) hp
      rw [ih hv']
    · obtain ⟨rfl, -⟩ := Bracket.eq_of_text_append hrest (fun _ => rfl) hp
      simp [hb] at hb'
  | @unclosed b hb =>
    have hp : b.text ++ [] = b.text := List.append_nil _
    rcases hv.first_unit with ⟨hp', -⟩ | ⟨c, cs, _, hc, hp', -⟩ | ⟨b', rest', _, hb', hp', -⟩ |
      ⟨b', -, hp', rfl⟩
    · simp [Bracket.text] at hp'
    · rw [← hp, Bracket.text_append] at hp'
      exact absurd (List.cons.inj hp').1.symm hc
    · obtain ⟨rfl, -⟩ := Bracket.eq_of_text_append (fun _ => rfl) (by simp [hb']) (hp.trans hp')
      simp [hb] at hb'
    · obtain ⟨rfl, -⟩ := Bracket.eq_of_text_append (fun _ => rfl) (fun _ => rfl) (hp.trans hp')
      rfl

theorem reads_exists (p : List Char) : ∃ us, Reads p us := by
  induction hlen : p.length using Nat.strongRecOn generalizing p with
  | _ n ih =>
    match p with
    | [] => exact ⟨[], .nil⟩
    | c :: cs =>
      by_cases hc : c = '['
      · -- a bracket expression, then the rest when it is closed
        subst hc
        obtain ⟨b, rest, htext, hrest⟩ := exists_bracket cs
        cases hb : b.closed
        · rw [← htext, hrest hb, List.append_nil]
          exact ⟨_, .unclosed hb⟩
        · have hshort : rest.length < n := by
            rw [← hlen, ← htext, Bracket.text_append]
            simp only [List.length_cons, List.length_append]
            omega
          obtain ⟨us, hus⟩ := ih rest.length hshort rest rfl
          rw [← htext]
          exact ⟨_, .closed hb hus⟩
      · obtain ⟨us, hus⟩ := ih cs.length (by simp [← hlen]) cs rfl
        exact ⟨_, .char hc hus⟩

theorem Reads.literalBraces_eq {p : List Char} {us : List PatternUnit} (h : Reads p us) :
    literalBraces p = us.flatMap PatternUnit.escape := by
  induction h with
  | nil => simp [literalBraces.eq_1]
  | @char c cs us hc _ ih =>
    rw [literalBraces.eq_2, if_neg hc, ih]
    by_cases hb : c = '{' ∨ c = '}' <;> simp [hb, PatternUnit.escape]
  | @closed b rest us hb _ ih =>
    rw [literalBraces_bracket b (by simp [hb]), ih]
    simp [PatternUnit.escape]
  | @unclosed b hb =>
    have h := @literalBraces_bracket b [] fun _ => rfl
    simpa [PatternUnit.escape, literalBraces.eq_1] using h

theorem PatternUnit.escape_escaped (u : PatternUnit) : u.escaped.escape = u.escape := by
  cases u with
  | bracket b => rfl
  | char c =>
    by_cases hb : c = '{' ∨ c = '}'
    · simp [escaped, escape, hb, Bracket.single, Bracket.text, Bracket.closing]
    · simp [escaped, escape, hb]

theorem Reads.escape {p : List Char} {us : List PatternUnit} (h : Reads p us) :
    Reads (us.flatMap PatternUnit.escape) (us.map PatternUnit.escaped) := by
  induction h with
  | nil => exact .nil
  | @char c cs us hc _ ih =>
    by_cases hb : c = '{' ∨ c = '}'
    · have hsingle := Reads.closed (b := Bracket.single c (by rcases hb with rfl | rfl <;> decide))
        rfl ih
      simpa [PatternUnit.escape, PatternUnit.escaped, hb, Bracket.single, Bracket.text,
        Bracket.closing] using hsingle
    · simpa [PatternUnit.escape, PatternUnit.escaped, hb] using Reads.char hc ih
  | @closed b rest us hb _ ih =>
    simpa [PatternUnit.escape, PatternUnit.escaped] using Reads.closed hb ih
  | @unclosed b hb => simpa [PatternUnit.escape, PatternUnit.escaped] using Reads.unclosed hb

theorem PatternUnit.escaped_ne_brace (u : PatternUnit) :
    u.escaped ≠ .char '{' ∧ u.escaped ≠ .char '}' := by
  cases u with
  | bracket b => simp [escaped]
  | char c =>
    by_cases hb : c = '{' ∨ c = '}'
    · simp [escaped, hb]
    · simp only [escaped, hb, dite_false, ne_eq, PatternUnit.char.injEq]
      exact not_or.mp hb

/-- A pattern reads in exactly one way; with braces made literal it is that reading with each
bracket expression as written and each brace outside one wrapped in a class of its own. The
result reads with no brace outside a bracket expression, and making its braces literal again
changes nothing. -/
theorem literalBracesText_reading (p : String) :
    ∃ us, Reads p.toList us ∧ (∀ vs, Reads p.toList vs → vs = us) ∧
      (literalBracesText p).toList = us.flatMap PatternUnit.escape ∧
      (∀ vs, Reads (literalBracesText p).toList vs → ∀ u ∈ vs, u ≠ .char '{' ∧ u ≠ .char '}') ∧
      literalBracesText (literalBracesText p) = literalBracesText p := by
  obtain ⟨us, hus⟩ := reads_exists p.toList
  have hout : (literalBracesText p).toList = us.flatMap PatternUnit.escape := by
    rw [literalBracesText, String.toList_ofList, hus.literalBraces_eq]
  have hreads : Reads (literalBracesText p).toList (us.map PatternUnit.escaped) := by
    rw [hout]
    exact hus.escape
  refine ⟨us, hus, fun vs hvs => hvs.unique hus, hout, fun vs hvs u hu => ?_, ?_⟩
  · rw [hreads.unique hvs |>.symm] at hu
    obtain ⟨v, -, rfl⟩ := List.mem_map.mp hu
    exact v.escaped_ne_brace
  · rw [literalBracesText, hreads.literalBraces_eq, List.flatMap_map]
    simp only [PatternUnit.escape_escaped, ← hout]
    exact String.ofList_toList

example : literalBracesText "a[\x7b]b\x7bc\x7d" = "a[\x7b]b[\x7b]c[\x7d]" := by decide +kernel

example : literalBracesText "a[]\x7d]" = "a[]\x7d]" := by decide +kernel

/-- `a/**/b` matches `a/b`: the `/**/` between separators also stands for a single `/`, where a
shell glob, whose `*` is any run of bytes, would need `a/`, two runs and `/b`, longer than
`a/b`. -/
theorem double_star_matches_no_directory :
    (∃ s, Selection.PatternSet.new ["a/**/b"] = .ok (some s) ∧ s.isMatch "a/b" = true) ∧
      ∀ x y : List Char, "a/b".toList ≠ "a/".toList ++ x ++ y ++ "/b".toList := by
  refine ⟨?_, fun x y h => ?_⟩
  · have hrun : (Selection.PatternSet.new ["a/**/b"]).toOption.any
        (fun o => o.any fun s => s.isMatch "a/b") = true := by
      decide +kernel
    obtain ⟨o, hnew, hmatch⟩ := Except.exists_ok_of_any hrun
    cases o with
    | none => cases hmatch
    | some s => exact ⟨s, hnew, hmatch⟩
  · have hlen := congrArg List.length h
    simp at hlen
    omega

end TestDispatch.Glob
