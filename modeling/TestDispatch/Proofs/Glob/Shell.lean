import TestDispatch.Proofs.Glob.Match
import TestDispatch.Proofs.Glob.Class
/-! Test-name patterns as byte-level shell globs, read unit by unit: the tokenizer gives each
unit its own token, so a pattern fails exactly at its first bad class and otherwise matches as
`UnitsMatch` says, unless a `**` stands between separators. -/
namespace TestDispatch.Glob

open TestDispatch.Text

def shellToken (c : Char) : Token :=
  if c = '*' then .zeroOrMore
  else if c = '?' then .any
  else if c = '{' ∨ c = '}' then .charClass false [(c, c)]
  else .literal c

def PatternUnit.token? : PatternUnit → Except GlobError Token
  | .bracket b => b.ranges?.map (.charClass b.negated ·)
  | .char c => .ok (shellToken c)

/-- No `**` stands between separators or pattern ends, the one place where it is read as any
number of directories. -/
def DirStarFree (us : List PatternUnit) : Prop :=
  ∀ l r, us = l ++ .char '*' :: .char '*' :: r →
    (l ≠ [] ∧ l.getLast? ≠ some (.char '/')) ∨ (r ≠ [] ∧ r.head? ≠ some (.char '/'))

/-- Units matched against bytes as a shell glob: `*` any run of bytes, `?` one byte, a bracket
expression one byte in its class (outside it when negated), any other character its own UTF-8
bytes. -/
inductive UnitsMatch : List PatternUnit → List UInt8 → Prop
  | nil : UnitsMatch [] []
  | skip {us : List PatternUnit} {bs : List UInt8} :
      UnitsMatch us bs → UnitsMatch (.char '*' :: us) bs
  | eat {us : List PatternUnit} {b : UInt8} {bs : List UInt8} :
      UnitsMatch (.char '*' :: us) bs → UnitsMatch (.char '*' :: us) (b :: bs)
  | any {us : List PatternUnit} {b : UInt8} {bs : List UInt8} :
      UnitsMatch us bs → UnitsMatch (.char '?' :: us) (b :: bs)
  | char {c : Char} {us : List PatternUnit} {bs : List UInt8} : c ≠ '*' → c ≠ '?' →
      UnitsMatch us bs → UnitsMatch (.char c :: us) (Utf8.bytes (String.singleton c) ++ bs)
  | bracket {b : Bracket} {rs : List (Char × Char)} {x : UInt8} {us : List PatternUnit}
      {bs : List UInt8} : b.ranges? = .ok rs →
      (inRanges x (rs.flatMap rangeBytes) != b.negated) = true → UnitsMatch us bs →
      UnitsMatch (.bracket b :: us) (x :: bs)

section Tokens

theorem mapM_token?_char (c : Char) (us : List PatternUnit) :
    (PatternUnit.char c :: us).mapM PatternUnit.token? =
      (us.mapM PatternUnit.token?).map (shellToken c :: ·) := by
  rw [List.mapM_cons]
  cases us.mapM PatternUnit.token? <;> rfl

theorem mapM_token?_bracket (b : Bracket) (us : List PatternUnit) :
    (PatternUnit.bracket b :: us).mapM PatternUnit.token? =
      b.ranges?.bind fun rs => (us.mapM PatternUnit.token?).map (.charClass b.negated rs :: ·) := by
  cases hb : b.ranges? <;> cases h : us.mapM PatternUnit.token? <;>
    simp [List.mapM_cons, PatternUnit.token?, hb, h, Except.map, Except.bind]

theorem PatternUnit.token?_eq_error {u : PatternUnit} {e : GlobError} :
    u.token? = .error e ↔ ∃ b, u = .bracket b ∧ b.ranges? = .error e := by
  cases u with
  | bracket b => simp [PatternUnit.token?, Except.map_eq_error]
  | char c => simp [PatternUnit.token?]

theorem PatternUnit.exists_token?_eq_ok {u : PatternUnit} :
    (∃ t, u.token? = .ok t) ↔ ∀ b, u = .bracket b → ∃ rs, b.ranges? = .ok rs := by
  cases u with
  | bracket b =>
    simp only [PatternUnit.token?, Except.map_eq_ok, PatternUnit.bracket.injEq, forall_eq']
    exact ⟨fun ⟨_, rs, hrs, _⟩ => ⟨rs, hrs⟩, fun ⟨rs, hrs⟩ => ⟨_, rs, hrs, rfl⟩⟩
  | char c => simp [PatternUnit.token?]

theorem mapM_token?_ok_iff {us : List PatternUnit} :
    (∃ ts, us.mapM PatternUnit.token? = .ok ts) ↔
      ∀ b, .bracket b ∈ us → ∃ rs, b.ranges? = .ok rs := by
  rw [Except.exists_mapM_eq_ok]
  constructor
  · intro h b hb
    exact PatternUnit.exists_token?_eq_ok.mp (h _ hb) b rfl
  · intro h u hu
    exact PatternUnit.exists_token?_eq_ok.mpr fun b hb => h b (hb ▸ hu)

theorem mapM_token?_eq_error {us : List PatternUnit} {e : GlobError} :
    us.mapM PatternUnit.token? = .error e ↔
      ∃ l b r, us = l ++ .bracket b :: r ∧ (∀ b', .bracket b' ∈ l → ∃ rs, b'.ranges? = .ok rs) ∧
        b.ranges? = .error e := by
  rw [Except.mapM_eq_error]
  constructor
  · rintro ⟨l, u, r, rfl, hl, hu⟩
    obtain ⟨b, rfl, hb⟩ := PatternUnit.token?_eq_error.mp hu
    exact ⟨l, b, r, rfl, fun b' hb' => PatternUnit.exists_token?_eq_ok.mp (hl _ hb') b' rfl, hb⟩
  · rintro ⟨l, b, r, rfl, hl, hb⟩
    refine ⟨l, .bracket b, r, rfl, fun u hu => ?_, PatternUnit.token?_eq_error.mpr ⟨b, rfl, hb⟩⟩
    exact PatternUnit.exists_token?_eq_ok.mpr fun b' hb' => hl b' (hb' ▸ hu)

end Tokens

section Escape

theorem PatternUnit.head?_escape {u : PatternUnit} {c : Char} (hc : c ≠ '[' ∧ c ≠ '{' ∧ c ≠ '}') :
    u.escape.head? = some c ↔ u = .char c := by
  cases u with
  | bracket b => simp [escape, Bracket.text, Ne.symm hc.1]
  | char d =>
    by_cases hb : d = '{' ∨ d = '}'
    · rcases hb with rfl | rfl <;> simp [escape, Ne.symm hc.1, Ne.symm hc.2.1, Ne.symm hc.2.2]
    · simp [escape, hb]

theorem PatternUnit.escape_ne_nil (u : PatternUnit) : u.escape ≠ [] := by
  cases u with
  | bracket b => simp [escape, Bracket.text]
  | char d => by_cases hb : d = '{' ∨ d = '}' <;> simp [escape, hb]

theorem PatternUnit.escape_char {c : Char} (hc : c ≠ '{' ∧ c ≠ '}') :
    (PatternUnit.char c).escape = [c] := by
  simp [escape, hc.1, hc.2]

theorem head?_flatMap_escape {us : List PatternUnit} {c : Char}
    (hc : c ≠ '[' ∧ c ≠ '{' ∧ c ≠ '}') :
    (us.flatMap PatternUnit.escape).head? = some c ↔ us.head? = some (.char c) := by
  cases us with
  | nil => simp
  | cons u us =>
    obtain ⟨x, xs, hx⟩ := List.exists_cons_of_ne_nil u.escape_ne_nil
    have h := PatternUnit.head?_escape (u := u) hc
    rw [hx] at h
    simpa [List.flatMap_cons, hx] using h

theorem flatMap_escape_eq_nil {us : List PatternUnit} :
    us.flatMap PatternUnit.escape = [] ↔ us = [] := by
  cases us with
  | nil => simp
  | cons u us => simp [u.escape_ne_nil]

end Escape

section Tokenizer

theorem tokenize_brace {c : Char} (hc : c = '{' ∨ c = '}') (acc : List Token)
    (prev : Option Char) (rest : List Char) :
    tokenize acc prev ('[' :: c :: ']' :: rest) =
      tokenize (.charClass false [(c, c)] :: acc) (some ']') rest := by
  rw [tokenize.eq_3]
  rcases hc with rfl | rfl <;> simp [classStart, classBody]

theorem tokenize_char {c : Char} (hc : c ≠ '[') (hs : c ≠ '*') (acc : List Token)
    (prev : Option Char) (rest : List Char) :
    tokenize acc prev ((PatternUnit.char c).escape ++ rest) =
      tokenize (shellToken c :: acc) (if c = '{' ∨ c = '}' then some ']' else some c) rest := by
  by_cases hq : c = '?'
  · subst hq
    simp [PatternUnit.escape, tokenize.eq_2, shellToken]
  by_cases hb : c = '{' ∨ c = '}'
  · simp only [PatternUnit.escape, if_pos hb, List.cons_append, List.nil_append,
      tokenize_brace hb]
    simp [shellToken, hb, hq, hs]
  · simp only [PatternUnit.escape, if_neg hb, List.singleton_append]
    rw [tokenize.eq_6 _ _ _ _ hq hc (fun _ h => absurd h hs) hs]
    simp [shellToken, hb, hq, hs]

theorem tokenize_star {rest : List Char} (h : rest.head? ≠ some '*') (acc : List Token)
    (prev : Option Char) :
    tokenize acc prev ('*' :: rest) = tokenize (.zeroOrMore :: acc) (some '*') rest :=
  tokenize.eq_5 _ _ _ fun r hr => h (by simp [hr])

theorem tokenize_two_stars (acc : List Token) (prev : Option Char) (cs : List Char) :
    ∃ acc' prev', tokenize acc prev ('*' :: '*' :: cs) = tokenize acc' prev' cs ∨
      ∃ cs', cs = '/' :: cs' ∧ tokenize acc prev ('*' :: '*' :: cs) = tokenize acc' prev' cs' := by
  have hslash : cs.head? = some '/' → cs = '/' :: cs.tail := by
    cases cs <;> simp
  rw [tokenize.eq_4]
  split_ifs with h₁ h₂ h₃ h₄ h₅ h₆
  · exact ⟨_, _, .inr ⟨_, hslash h₂, rfl⟩⟩
  · rw [List.isEmpty_iff.mp h₃]
    exact ⟨_, _, .inl rfl⟩
  · exact ⟨_, _, .inl rfl⟩
  · exact ⟨_, _, .inl rfl⟩
  · rw [List.isEmpty_iff.mp h₅]
    exact ⟨_, _, .inl rfl⟩
  · exact ⟨_, _, .inr ⟨_, hslash h₆, rfl⟩⟩
  · exact ⟨_, _, .inl rfl⟩

theorem Reads.of_cons {p : List Char} {u : PatternUnit} {us : List PatternUnit}
    (h : Reads p (u :: us)) : ∃ q, Reads q us ∧ q.length < p.length := by
  cases h with
  | char _ h => exact ⟨_, h, by simp⟩
  | closed _ h => exact ⟨_, h, by simp [Bracket.text]; omega⟩
  | unclosed _ => exact ⟨[], .nil, by simp [Bracket.text]⟩

theorem Reads.char_cons {p : List Char} {c : Char} {us : List PatternUnit}
    (h : Reads p (.char c :: us)) : ∃ q, p = c :: q ∧ Reads q us := by
  cases h with
  | char _ h => exact ⟨_, rfl, h⟩

theorem Reads.rest_of_unclosed {p : List Char} {b : Bracket} {us : List PatternUnit}
    (h : Reads p (.bracket b :: us)) (hb : b.closed = false) : us = [] := by
  cases h with
  | closed hb' _ => simp [hb] at hb'
  | unclosed _ => rfl

/-- The tokenizer fails on the written units exactly when some unit has no token, with the
failure of the first: a `**` read as a recursive token changes the tokens, never whether they
exist. -/
theorem tokenize_units_eq_error {p : List Char} {us : List PatternUnit} (hus : Reads p us)
    (acc : List Token) (prev : Option Char) (e : GlobError) :
    tokenize acc prev (us.flatMap PatternUnit.escape) = .error e ↔
      us.mapM PatternUnit.token? = .error e := by
  -- on the length of the pattern: a `**` takes two units, and the `/` after it a third
  induction hlen : p.length using Nat.strongRecOn generalizing p us acc prev with
  | _ n ih =>
    rcases hus.first_unit with ⟨rfl, rfl⟩ | ⟨c, cs, vs, hc, rfl, rfl, hvs⟩ |
      ⟨b, rest, vs, hb, rfl, rfl, hvs⟩ | ⟨b, hb, rfl, rfl⟩
    · simp [tokenize.eq_1]
    · rw [List.flatMap_cons, mapM_token?_char, Except.map_eq_error]
      by_cases hs : c = '*'
      · subst hs
        rw [PatternUnit.escape_char (by decide), List.singleton_append]
        by_cases hstar : vs.head? = some (.char '*')
        · -- `**`: both stars are read at once
          obtain ⟨ws, rfl⟩ := List.head?_eq_some_iff.mp hstar
          obtain ⟨ds, rfl, hws⟩ := hvs.char_cons
          rw [mapM_token?_char, Except.map_eq_error, List.flatMap_cons,
            PatternUnit.escape_char (by decide), List.singleton_append]
          obtain ⟨acc', prev', h | ⟨cs', hcs', h⟩⟩ :=
            tokenize_two_stars acc prev (ws.flatMap PatternUnit.escape)
          · rw [h, ih ds.length (by simp only [← hlen, List.length_cons]; omega) hws _ _ rfl]
          · -- the `/` after them is a unit of its own, and is read with them
            obtain ⟨xs, rfl⟩ := List.head?_eq_some_iff.mp
              ((@head?_flatMap_escape ws '/' (by decide)).mp (by simp [hcs']))
            obtain ⟨ds', rfl, hxs⟩ := hws.char_cons
            rw [List.flatMap_cons, PatternUnit.escape_char (by decide), List.singleton_append,
              List.cons.injEq] at hcs'
            rw [h, ← hcs'.2, ih ds'.length (by simp only [← hlen, List.length_cons]; omega) hxs _ _ rfl, mapM_token?_char,
              Except.map_eq_error]
        · have hhead : (vs.flatMap PatternUnit.escape).head? ≠ some '*' :=
            fun h => hstar ((head?_flatMap_escape (by decide)).mp h)
          rw [tokenize_star hhead, ih cs.length (by simp only [← hlen, List.length_cons]; omega) hvs _ _ rfl]
      · rw [tokenize_char hc hs, ih cs.length (by simp only [← hlen, List.length_cons]; omega) hvs _ _ rfl]
    · rw [List.flatMap_cons, PatternUnit.escape, b.tokenize_text (by simp [hb]),
        mapM_token?_bracket]
      cases b.ranges? with
      | error e' => simp [Except.bind]
      | ok rs =>
        have hshort : rest.length < n := by
          simp [← hlen, Bracket.text]
          omega
        simp only [Except.bind]
        rw [ih rest.length hshort hvs _ _ rfl, Except.map_eq_error]
    · -- a bracket expression that runs to the end is the last unit
      rw [List.flatMap_cons, List.flatMap_nil, List.append_nil, PatternUnit.escape,
        b.tokenize_text_nil, mapM_token?_bracket]
      cases b.ranges? <;> simp [Except.bind, Except.map, tokenize.eq_1]

theorem tokenize_two_runs {acc : List Token} {prev : Option Char} {cs : List Char}
    (h : (acc ≠ [] ∧ prev ≠ some '/') ∨ (cs ≠ [] ∧ cs.head? ≠ some '/')) :
    tokenize acc prev ('*' :: '*' :: cs) =
      tokenize (.zeroOrMore :: .zeroOrMore :: acc) (some '*') cs := by
  rw [tokenize.eq_4]
  split_ifs with h₁ h₂ h₃ h₄ h₅ h₆ <;> simp_all

/-- Without a `**` between separators, the tokenizer reads the written units as their tokens,
one each. Of the units `l` already read it remembers only whether there were any and whether
the last was a `/`. -/
theorem tokenize_units_ok {p : List Char} {us : List PatternUnit} (hus : Reads p us)
    {l : List PatternUnit} {acc : List Token} {prev : Option Char} (hacc : acc = [] ↔ l = [])
    (hprev : prev = some '/' ↔ l.getLast? = some (.char '/')) (hfree : DirStarFree (l ++ us))
    {ts : List Token} (hts : us.mapM PatternUnit.token? = .ok ts) :
    tokenize acc prev (us.flatMap PatternUnit.escape) = .ok (acc.reverse ++ ts) := by
  induction hlen : p.length using Nat.strongRecOn generalizing p us l acc prev ts with
  | _ n ih =>
    -- after a unit `u` read as `t`, the tokenizer's memory is again that of the units read
    have hread : ∀ (u : PatternUnit) (t : Token) (prev' : Option Char),
        (prev' = some '/' ↔ u = .char '/') →
          (t :: acc = [] ↔ l ++ [u] = []) ∧
            (prev' = some '/' ↔ (l ++ [u]).getLast? = some (.char '/')) := by
      intro u t prev' hu
      simpa using hu
    rcases hus.first_unit with ⟨rfl, rfl⟩ | ⟨c, cs, vs, hc, rfl, rfl, hvs⟩ |
      ⟨b, rest, vs, hb, rfl, rfl, hvs⟩ | ⟨b, hb, rfl, rfl⟩
    · simp only [List.mapM_nil, Except.pure_def, Except.ok.injEq] at hts
      simp [← hts, tokenize.eq_1]
    · obtain ⟨t, ts', ht, hts', rfl⟩ := Except.mapM_cons_eq_ok.mp hts
      simp only [PatternUnit.token?, Except.ok.injEq] at ht
      subst ht
      rw [List.flatMap_cons]
      by_cases hs : c = '*'
      · subst hs
        rw [PatternUnit.escape_char (by decide), List.singleton_append]
        by_cases hstar : vs.head? = some (.char '*')
        · -- `**` away from separators: two runs
          obtain ⟨ws, rfl⟩ := List.head?_eq_some_iff.mp hstar
          obtain ⟨ds, rfl, hws⟩ := hvs.char_cons
          obtain ⟨t₂, ts'', ht₂, hts'', rfl⟩ := Except.mapM_cons_eq_ok.mp hts'
          simp only [PatternUnit.token?, Except.ok.injEq] at ht₂
          subst ht₂
          have hsplit := hfree l ws rfl
          rw [List.flatMap_cons, PatternUnit.escape_char (by decide), List.singleton_append,
            tokenize_two_runs ?_]
          · rw [ih ds.length (by simp only [← hlen, List.length_cons]; omega) hws
              (l := l ++ [.char '*', .char '*']) (by simp) (by simp)
              (by simpa using hfree) hts'' rfl]
            simp [shellToken]
          · rcases hsplit with ⟨hl, hlast⟩ | ⟨hw, hwh⟩
            · exact .inl ⟨fun h => hl (hacc.mp h), fun h => hlast (hprev.mp h)⟩
            · exact .inr ⟨fun h => hw (flatMap_escape_eq_nil.mp h),
                fun h => hwh ((head?_flatMap_escape (by decide)).mp h)⟩
        · have hhead : (vs.flatMap PatternUnit.escape).head? ≠ some '*' :=
            fun h => hstar ((head?_flatMap_escape (by decide)).mp h)
          obtain ⟨hacc', hprev'⟩ := hread (.char '*') .zeroOrMore (some '*') (by simp)
          rw [tokenize_star hhead, ih cs.length (by simp only [← hlen, List.length_cons]; omega)
            hvs hacc' hprev' (by simpa using hfree) hts' rfl]
          simp [shellToken]
      · obtain ⟨hacc', hprev'⟩ := hread (.char c) (shellToken c)
          (if c = '{' ∨ c = '}' then some ']' else some c) (by
            split_ifs with h
            · rcases h with rfl | rfl <;> simp
            · simp)
        rw [tokenize_char hc hs, ih cs.length (by simp only [← hlen, List.length_cons]; omega)
          hvs hacc' hprev' (by simpa using hfree) hts' rfl]
        simp
    · obtain ⟨t, ts', ht, hts', rfl⟩ := Except.mapM_cons_eq_ok.mp hts
      obtain ⟨rs, hrs, rfl⟩ := Except.map_eq_ok.mp ht
      obtain ⟨hacc', hprev'⟩ := hread (.bracket b) (.charClass b.negated rs) (some ']') (by simp)
      rw [List.flatMap_cons, PatternUnit.escape, b.tokenize_text (by simp [hb]), hrs]
      simp only [Except.bind]
      rw [ih rest.length (by simp [← hlen, Bracket.text]; omega) hvs hacc' hprev'
        (by simpa using hfree) hts' rfl]
      simp
    · obtain ⟨t, ts', ht, hts', rfl⟩ := Except.mapM_cons_eq_ok.mp hts
      obtain ⟨rs, hrs, rfl⟩ := Except.map_eq_ok.mp ht
      simp only [List.mapM_nil, Except.pure_def, Except.ok.injEq] at hts'
      subst hts'
      rw [List.flatMap_cons, List.flatMap_nil, List.append_nil, PatternUnit.escape,
        b.tokenize_text_nil, hrs]
      simp [Except.bind, tokenize.eq_1]

end Tokenizer

section Matching

theorem shellToken_elems (c : Char) :
    (shellToken c).elems =
      if c = '*' then [.anyRun] else if c = '?' then [.byteSet true []]
      else (Utf8.bytes (String.singleton c)).map exactly := by
  unfold shellToken
  by_cases hs : c = '*'
  · simp [hs, Token.elems]
  by_cases hq : c = '?'
  · simp [hq, Token.elems]
  by_cases hb : c = '{' ∨ c = '}'
  · rw [if_neg hs, if_neg hq, if_pos hb, if_neg hs, if_neg hq]
    rcases hb with rfl | rfl <;> decide
  · simp [hs, hq, hb, Token.elems]

theorem token?_eq_ok {u : PatternUnit} {t : Token} (h : u.token? = .ok t) :
    t ≠ .recursivePrefix ∧ ∀ e ∈ t.elems, e ≠ .dirPrefix := by
  cases u with
  | bracket b =>
    obtain ⟨rs, -, rfl⟩ := Except.map_eq_ok.mp h
    simp [Token.elems]
  | char c =>
    simp only [PatternUnit.token?, Except.ok.injEq] at h
    subst h
    refine ⟨by unfold shellToken; split_ifs <;> simp, fun e he => ?_⟩
    rw [shellToken_elems] at he
    split_ifs at he
    · simp_all
    · simp_all
    · obtain ⟨a, -, rfl⟩ := List.mem_map.mp he
      simp [exactly]

theorem compile_units {us : List PatternUnit} {ts : List Token}
    (h : us.mapM PatternUnit.token? = .ok ts) :
    compile ts = ts.flatMap Token.elems ∧ ∀ e ∈ compile ts, e ≠ .dirPrefix := by
  have hts : ∀ t ∈ ts, t ≠ .recursivePrefix ∧ ∀ e ∈ t.elems, e ≠ .dirPrefix := by
    induction us generalizing ts with
    | nil =>
      simp only [List.mapM_nil, Except.pure_def, Except.ok.injEq] at h
      simp [← h]
    | cons u us ih =>
      obtain ⟨t, ts', ht, hts', rfl⟩ := Except.mapM_cons_eq_ok.mp h
      exact List.forall_mem_cons.mpr ⟨token?_eq_ok ht, ih hts'⟩
  have hcompile : compile ts = ts.flatMap Token.elems := by
    unfold compile
    rw [if_neg]
    rintro rfl
    exact (hts _ List.mem_cons_self).1 rfl
  refine ⟨hcompile, fun e he => ?_⟩
  rw [hcompile, List.mem_flatMap] at he
  obtain ⟨t, ht, he⟩ := he
  exact (hts t ht).2 e he

theorem exactly_match_iff (b c : UInt8) : (inRanges c [(b, b)] != false) = true ↔ c = b := by
  simp [inRanges]
  constructor
  · rintro ⟨h1, h2⟩
    exact UInt8.le_antisymm h2 h1
  · rintro rfl
    exact ⟨UInt8.le_refl c, UInt8.le_refl c⟩

theorem elemsMatch_exactly_append {es : List Elem} :
    ∀ {l bs : List UInt8}, ElemsMatch (l.map exactly ++ es) bs ↔
      ∃ rest, bs = l ++ rest ∧ ElemsMatch es rest
  | [], bs => by simp
  | b :: l, bs => by
    constructor
    · intro h
      cases h with
      | byte hb h =>
        obtain ⟨rest, rfl, hrest⟩ := elemsMatch_exactly_append.mp h
        exact ⟨rest, by rw [(exactly_match_iff _ _).mp hb]; rfl, hrest⟩
    · rintro ⟨rest, rfl, hrest⟩
      exact .byte ((exactly_match_iff b b).mpr rfl) (elemsMatch_exactly_append.mpr ⟨rest, rfl, hrest⟩)

theorem elemsMatch_nil_iff {bs : List UInt8} : ElemsMatch [] bs ↔ bs = [] := by
  constructor
  · intro h
    cases h
    rfl
  · rintro rfl
    exact .nil

theorem elemsMatch_byteSet_iff {negated : Bool} {ranges : List (UInt8 × UInt8)} {es : List Elem}
    {bs : List UInt8} :
    ElemsMatch (.byteSet negated ranges :: es) bs ↔
      ∃ b rest, bs = b :: rest ∧ (inRanges b ranges != negated) = true ∧ ElemsMatch es rest := by
  constructor
  · intro h
    cases h with
    | byte hb h => exact ⟨_, _, rfl, hb, h⟩
  · rintro ⟨b, rest, rfl, hb, h⟩
    exact .byte hb h

theorem elemsMatch_run_iff {es : List Elem} {bs : List UInt8} :
    ElemsMatch (.anyRun :: es) bs ↔
      ElemsMatch es bs ∨ ∃ b rest, bs = b :: rest ∧ ElemsMatch (.anyRun :: es) rest := by
  constructor
  · intro h
    cases h with
    | skip h => exact .inl h
    | eat h => exact .inr ⟨_, _, rfl, h⟩
  · rintro (h | ⟨b, rest, rfl, h⟩)
    · exact .skip h
    · exact .eat h

variable {us : List PatternUnit} {bs : List UInt8}

theorem unitsMatch_nil_iff : UnitsMatch [] bs ↔ bs = [] := by
  constructor
  · intro h
    cases h
    rfl
  · rintro rfl
    exact .nil

theorem unitsMatch_star_iff :
    UnitsMatch (.char '*' :: us) bs ↔
      UnitsMatch us bs ∨ ∃ b rest, bs = b :: rest ∧ UnitsMatch (.char '*' :: us) rest := by
  constructor
  · intro h
    cases h with
    | skip h => exact .inl h
    | eat h => exact .inr ⟨_, _, rfl, h⟩
    | char hs => exact absurd rfl hs
  · rintro (h | ⟨b, rest, rfl, h⟩)
    · exact .skip h
    · exact .eat h

theorem unitsMatch_any_iff :
    UnitsMatch (.char '?' :: us) bs ↔ ∃ b rest, bs = b :: rest ∧ UnitsMatch us rest := by
  constructor
  · intro h
    cases h with
    | any h => exact ⟨_, _, rfl, h⟩
    | char _ hq => exact absurd rfl hq
  · rintro ⟨b, rest, rfl, h⟩
    exact .any h

theorem unitsMatch_char_iff {c : Char} (hs : c ≠ '*') (hq : c ≠ '?') :
    UnitsMatch (.char c :: us) bs ↔
      ∃ rest, bs = Utf8.bytes (String.singleton c) ++ rest ∧ UnitsMatch us rest := by
  constructor
  · intro h
    cases h with
    | skip => exact absurd rfl hs
    | eat => exact absurd rfl hs
    | any => exact absurd rfl hq
    | char _ _ h => exact ⟨_, rfl, h⟩
  · rintro ⟨rest, rfl, h⟩
    exact .char hs hq h

theorem unitsMatch_bracket_iff {b : Bracket} {rs : List (Char × Char)} (hrs : b.ranges? = .ok rs) :
    UnitsMatch (.bracket b :: us) bs ↔
      ∃ x rest, bs = x :: rest ∧ (inRanges x (rs.flatMap rangeBytes) != b.negated) = true ∧
        UnitsMatch us rest := by
  constructor
  · intro h
    cases h with
    | bracket hrs' hx h =>
      rw [hrs, Except.ok.injEq] at hrs'
      subst hrs'
      exact ⟨_, _, rfl, hx, h⟩
  · rintro ⟨x, rest, rfl, hx, h⟩
    exact .bracket hrs hx h

/-- The byte form of the units' tokens matches exactly as the units do. -/
theorem elemsMatch_iff_unitsMatch : ∀ {us : List PatternUnit} {ts : List Token},
    us.mapM PatternUnit.token? = .ok ts →
      ∀ bs, ElemsMatch (ts.flatMap Token.elems) bs ↔ UnitsMatch us bs
  | [], ts, h, bs => by
    simp only [List.mapM_nil, Except.pure_def, Except.ok.injEq] at h
    subst h
    simp [elemsMatch_nil_iff, unitsMatch_nil_iff]
  | u :: us, ts, h, bs => by
    obtain ⟨t, ts', ht, hts', rfl⟩ := Except.mapM_cons_eq_ok.mp h
    have ih := elemsMatch_iff_unitsMatch hts'
    rw [List.flatMap_cons]
    cases u with
    | char c =>
      simp only [PatternUnit.token?, Except.ok.injEq] at ht
      subst ht
      rw [shellToken_elems]
      by_cases hs : c = '*'
      · subst hs
        simp only [if_true, List.singleton_append]
        induction bs with
        | nil =>
          rw [elemsMatch_run_iff, unitsMatch_star_iff, ih]
          simp
        | cons b bs ihb =>
          rw [elemsMatch_run_iff, unitsMatch_star_iff, ih]
          refine or_congr Iff.rfl ⟨?_, ?_⟩ <;> rintro ⟨b', rest, heq, h⟩ <;> cases heq
          · exact ⟨b, bs, rfl, ihb.mp h⟩
          · exact ⟨b, bs, rfl, ihb.mpr h⟩
      by_cases hq : c = '?'
      · subst hq
        simp [elemsMatch_byteSet_iff, unitsMatch_any_iff, ih, inRanges]
      · rw [if_neg hs, if_neg hq, elemsMatch_exactly_append, unitsMatch_char_iff hs hq]
        simp [ih]
    | bracket b =>
      obtain ⟨rs, hrs, rfl⟩ := Except.map_eq_ok.mp ht
      rw [Token.elems, List.singleton_append, elemsMatch_byteSet_iff, unitsMatch_bracket_iff hrs]
      simp [ih]

end Matching

theorem new_singleton_eq_error {p : String} {e : GlobError} :
    Selection.PatternSet.new [p] = .error ⟨p, e⟩ ↔ Glob.parse (literalBracesText p) = .error e := by
  simp only [Selection.PatternSet.new, Selection.compileAll, List.isEmpty_cons, Bool.false_eq_true,
    if_false]
  cases Glob.parse (literalBracesText p) <;> simp [Except.map]

theorem new_singleton_of_parse {p : String} {ts : List Token}
    (h : Glob.parse (literalBracesText p) = .ok ts) :
    Selection.PatternSet.new [p] = .ok (some ⟨[p], [ts]⟩) := by
  simp [Selection.PatternSet.new, Selection.compileAll, h, Except.map]

/-- Literal braces read a pattern unit by unit, copying bracket expressions and escaping every
other brace, and are idempotent. The pattern then fails to compile exactly at its first bracket
expression that spells no class (one left unclosed, or with a range running backwards), and
otherwise, unless a `**` stands between separators or pattern ends, matches a name exactly
when the name's bytes match its units as a byte-level shell glob. -/
theorem shell_glob_of_literal_braces (p : String) :
    ∃ us, Reads p.toList us ∧ (∀ vs, Reads p.toList vs → vs = us) ∧
      (literalBracesText p).toList = us.flatMap PatternUnit.escape ∧
      (∀ vs, Reads (literalBracesText p).toList vs → ∀ u ∈ vs, u ≠ .char '{' ∧ u ≠ .char '}') ∧
      literalBracesText (literalBracesText p) = literalBracesText p ∧
      (∀ e, Selection.PatternSet.new [p] = .error ⟨p, e⟩ ↔
        ∃ l b r, us = l ++ .bracket b :: r ∧ (∀ b', .bracket b' ∈ l → ∃ rs, b'.ranges? = .ok rs) ∧
          b.ranges? = .error e) ∧
      ((∀ b, .bracket b ∈ us → ∃ rs, b.ranges? = .ok rs) → DirStarFree us →
        ∃ s, Selection.PatternSet.new [p] = .ok (some s) ∧
          ∀ n, s.isMatch n = true ↔ UnitsMatch us (Utf8.bytes n)) := by
  obtain ⟨us, hus, huniq, hout, hbraces, hidem⟩ := literalBracesText_reading p
  have hparse : Glob.parse (literalBracesText p) =
      tokenize [] none (us.flatMap PatternUnit.escape) := by
    rw [Glob.parse, hout]
  refine ⟨us, hus, huniq, hout, hbraces, hidem, fun e => ?_, fun hok hfree => ?_⟩
  · rw [new_singleton_eq_error, hparse, tokenize_units_eq_error hus, mapM_token?_eq_error]
  · obtain ⟨ts, hts⟩ := mapM_token?_ok_iff.mpr hok
    have htok := @tokenize_units_ok _ _ hus [] [] none (by simp) (by simp) (by simpa using hfree)
      _ hts
    obtain ⟨hcompile, hno⟩ := compile_units hts
    refine ⟨⟨[p], [ts]⟩, new_singleton_of_parse (by rw [hparse, htok]; simp), fun n => ?_⟩
    simp only [Selection.PatternSet.isMatch, List.any_cons, List.any_nil, Bool.or_false,
      matchesName]
    rw [matchesBytes_iff hno, hcompile]
    exact elemsMatch_iff_unitsMatch hts _

/-- The class `[!a-c]`: one byte outside `a` to `c`. -/
def notAToC : Bracket where
  opening := ['!']
  members := ['a', '-', 'c']
  closed := true
  opening_mem := by decide
  close_not_mem := by decide
  member_before_close := by simp
  negation_taken := by simp

theorem shell_glob_of_literal_braces_sample :
    ∃ s, Selection.PatternSet.new ["x[!a-c]*\x7b"] = .ok (some s) ∧
      ∀ n, s.isMatch n = true ↔
        UnitsMatch [.char 'x', .bracket notAToC, .char '*', .char '{'] (Utf8.bytes n) := by
  obtain ⟨us, hus, -, -, -, -, -, hmatch⟩ := shell_glob_of_literal_braces "x[!a-c]*\x7b"
  have hreads : Reads "x[!a-c]*\x7b".toList
      [.char 'x', .bracket notAToC, .char '*', .char '{'] := by
    have htext : "x[!a-c]*\x7b".toList = 'x' :: (notAToC.text ++ ['*', '{']) := by decide
    rw [htext]
    exact .char (by decide) (.closed rfl (.char (by decide) (.char (by decide) .nil)))
  obtain rfl := hus.unique hreads
  refine hmatch (fun b hb => ⟨[('a', 'c')], ?_⟩) fun l r h => ?_
  · simp only [List.mem_cons, PatternUnit.bracket.injEq, reduceCtorEq, List.not_mem_nil,
      false_or, or_false] at hb
    subst hb
    rfl
  · rcases l with _ | ⟨u₁, _ | ⟨u₂, _ | ⟨u₃, _ | ⟨u₄, l⟩⟩⟩⟩ <;> simp at h

end TestDispatch.Glob
