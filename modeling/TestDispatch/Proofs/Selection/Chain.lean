import TestDispatch.Selection.Filter
import TestDispatch.Proofs.Except
import Mathlib.Data.List.Forall2
/-! The filter chain as a whole: the first bad exclude pattern, then the first bad include
pattern, is reported, and a built chain accepts exactly what `Admits` says. -/
namespace TestDispatch.Selection

open TestDispatch.Glob TestDispatch.Classfile

def Compiles (p : String) : Prop := ∃ tokens, Glob.parse (literalBracesText p) = .ok tokens

instance (p : String) : Decidable (Compiles p) :=
  decidable_of_iff ((Glob.parse (literalBracesText p)).isOk = true) (by
    cases h : Glob.parse (literalBracesText p) <;> simp [Compiles, Except.isOk, Except.toBool, h])

/-- A pattern matches a name: it compiles, and its compiled form matches the whole name. -/
def Matches (p name : String) : Prop :=
  ∃ tokens, Glob.parse (literalBracesText p) = .ok tokens ∧ matchesName tokens name = true

/-- `e` reports the first pattern of `ps` that does not compile. -/
def FirstFailure (ps : List String) (e : PatternError) : Prop :=
  ∃ pre p post, ps = pre ++ p :: post ∧ (∀ q ∈ pre, Compiles q) ∧
    Glob.parse (literalBracesText p) = .error e.reason ∧ e.pattern = p

theorem firstFailure_cons {p : String} {ps : List String} {e : PatternError} :
    FirstFailure (p :: ps) e ↔
      (Glob.parse (literalBracesText p) = .error e.reason ∧ e.pattern = p) ∨
        (Compiles p ∧ FirstFailure ps e) := by
  constructor
  · rintro ⟨pre, q, post, hps, hpre, hq, he⟩
    cases pre with
    | nil =>
      simp only [List.nil_append, List.cons.injEq] at hps
      obtain ⟨rfl, rfl⟩ := hps
      exact .inl ⟨hq, he⟩
    | cons r pre =>
      simp only [List.cons_append, List.cons.injEq] at hps
      obtain ⟨rfl, rfl⟩ := hps
      refine .inr ⟨hpre _ List.mem_cons_self, pre, q, post, rfl, ?_, hq, he⟩
      exact fun x hx => hpre x (List.mem_cons_of_mem _ hx)
  · rintro (⟨hp, he⟩ | ⟨hp, pre, q, post, rfl, hpre, hq, he⟩)
    · exact ⟨[], p, ps, rfl, by simp, hp, he⟩
    · refine ⟨p :: pre, q, post, rfl, ?_, hq, he⟩
      intro x hx
      rcases List.mem_cons.mp hx with rfl | hx
      · exact hp
      · exact hpre x hx

theorem compileAll_eq_error {ps : List String} {e : PatternError} :
    compileAll ps = .error e ↔ FirstFailure ps e := by
  induction ps with
  | nil => simp [compileAll, FirstFailure]
  | cons p ps ih =>
    rw [firstFailure_cons, compileAll]
    cases h : Glob.parse (literalBracesText p) with
    | error r =>
      have hc : ¬ Compiles p := by simp [Compiles, h]
      obtain ⟨pattern, reason⟩ := e
      simp [hc, and_comm, eq_comm]
    | ok tokens =>
      have hc : Compiles p := ⟨tokens, h⟩
      cases hrest : compileAll ps <;> simp_all [Except.map]

theorem compileAll_ok_iff {ps : List String} :
    (∃ cs, compileAll ps = .ok cs) ↔ ∀ p ∈ ps, Compiles p := by
  induction ps with
  | nil => simp [compileAll]
  | cons p ps ih =>
    rw [compileAll, List.forall_mem_cons]
    cases h : Glob.parse (literalBracesText p) with
    | error r => simp [Compiles, h]
    | ok tokens =>
      have hc : Compiles p := ⟨tokens, h⟩
      cases hrest : compileAll ps <;> simp_all [Except.map]

theorem compileAll_forall₂ {ps : List String} {cs : List (List Token)}
    (h : compileAll ps = .ok cs) :
    List.Forall₂ (fun p t => Glob.parse (literalBracesText p) = .ok t) ps cs := by
  induction ps generalizing cs with
  | nil =>
    simp only [compileAll, Except.ok.injEq] at h
    subst h
    exact .nil
  | cons p ps ih =>
    rw [compileAll] at h
    cases hp : Glob.parse (literalBracesText p) with
    | error r => simp [hp] at h
    | ok tokens =>
      cases hrest : compileAll ps with
      | error e => simp [hp, hrest, Except.map] at h
      | ok ts =>
        simp only [hp, hrest, Except.map, Except.ok.injEq] at h
        subst h
        exact .cons hp (ih hrest)

theorem matches_iff_of_parse {p name : String} {tokens : List Token}
    (h : Glob.parse (literalBracesText p) = .ok tokens) :
    Matches p name ↔ matchesName tokens name = true := by
  constructor
  · rintro ⟨t, ht, hm⟩
    rw [h, Except.ok.injEq] at ht
    exact ht ▸ hm
  · exact fun hm => ⟨tokens, h, hm⟩

theorem any_matchesName_iff {ps : List String} {cs : List (List Token)}
    (h : List.Forall₂ (fun p t => Glob.parse (literalBracesText p) = .ok t) ps cs) (name : String) :
    cs.any (fun t => matchesName t name) = true ↔ ∃ p ∈ ps, Matches p name := by
  induction h with
  | nil => simp
  | cons hp _ ih => simp [ih, matches_iff_of_parse hp]

/-- The naming convention on the characters of a file name: no `$`, and a `.class` file whose
stem starts with `Test` or ends with `Test` or `TestCase`. -/
def IsTestFileName (name : String) : Prop :=
  '$' ∉ name.toList ∧ ∃ stem, name.toList = stem ++ ".class".toList ∧
    ("Test".toList <+: stem ∨ "Test".toList <:+ stem ∨ "TestCase".toList <:+ stem)

theorem endsWith_iff_suffix (name pat : String) :
    name.endsWith pat = true ↔ pat.toList <:+ name.toList := by
  simp [← String.endsWith_toSlice]

theorem isTestClassName_iff (name : String) :
    isTestClassName name = true ↔ IsTestFileName name := by
  unfold isTestClassName IsTestFileName
  by_cases hd : '$' ∈ name.toList
  · simp [hd]
  have hc : name.toList.contains '$' = false := by simpa using hd
  simp only [hc, Bool.false_eq_true, if_false, hd, not_false_eq_true, true_and]
  by_cases hs : ".class".toList <:+ name.toList
  · obtain ⟨stem, hstem⟩ := hs
    have he : name.endsWith classSuffix = true :=
      (endsWith_iff_suffix name classSuffix).mpr ⟨stem, hstem⟩
    have hdrop : ((name.dropEnd classSuffix.length).toString).toList = stem := by
      rw [show classSuffix.length = 6 from rfl]
      simp [← hstem]
    have hunique : ∀ stem', name.toList = stem' ++ ".class".toList ↔ stem' = stem := by
      intro stem'
      rw [← hstem]
      exact ⟨fun h => (List.append_cancel_right h).symm, fun h => h ▸ rfl⟩
    simp only [he, if_true, hunique, exists_eq_left, Bool.or_eq_true, String.startsWith_string_iff,
      endsWith_iff_suffix, hdrop, or_assoc]
  · have he : name.endsWith classSuffix = false :=
      Bool.eq_false_iff.mpr fun h => hs ((endsWith_iff_suffix name classSuffix).mp h)
    simp only [he, Bool.false_eq_true, if_false, false_iff, not_exists, not_and]
    intro stem hstem
    exact absurd ⟨stem, hstem.symm⟩ hs

namespace PatternSet

theorem new_eq_error {ps : List String} {e : PatternError} :
    PatternSet.new ps = .error e ↔ compileAll ps = .error e := by
  unfold PatternSet.new
  cases ps with
  | nil => simp [compileAll]
  | cons p ps => cases compileAll (p :: ps) <;> simp [Except.map]

theorem new_of_compileAll {ps : List String} {cs : List (List Token)}
    (h : compileAll ps = .ok cs) :
    PatternSet.new ps = .ok (if ps = [] then none else some ⟨ps, cs⟩) := by
  unfold PatternSet.new
  cases ps with
  | nil => simp
  | cons p ps => simp [h, Except.map]

theorem new_ok_iff {ps : List String} :
    (∃ s, PatternSet.new ps = .ok s) ↔ ∀ p ∈ ps, Compiles p := by
  rw [← compileAll_ok_iff]
  cases h : compileAll ps with
  | ok cs => simp [new_of_compileAll h]
  | error e => simp [new_eq_error.mpr h]

end PatternSet

theorem filterChain_new_eq_error {includes excludes : List String} {e : PatternError} :
    FilterChain.new includes excludes = .error e ↔
      PatternSet.new excludes = .error e ∨
        ((∃ s, PatternSet.new excludes = .ok s) ∧ PatternSet.new includes = .error e) := by
  unfold FilterChain.new
  cases PatternSet.new excludes <;> cases PatternSet.new includes <;> simp

/-- What the chain built from `includes` and `excludes` asks of a class: no exclude pattern
matches its name, some include pattern does (when there are any), its file name follows the
naming convention, and it is neither an interface nor abstract. -/
def Admits (includes excludes : List String) (d : ClassDescriptor) : Prop :=
  (excludes = [] ∨ ∀ p ∈ excludes, ¬ Matches p d.className) ∧
    (includes = [] ∨ ∃ p ∈ includes, Matches p d.className) ∧
    IsTestFileName d.fileName ∧ d.isInterface = false ∧ d.isAbstract = false

theorem accepts_excluded {ps : List String} {cs : List (List Token)}
    (h : List.Forall₂ (fun p t => Glob.parse (literalBracesText p) = .ok t) ps cs)
    (d : ClassDescriptor) :
    (ClassFilter.excluded ⟨ps, cs⟩).accepts d = true ↔ ∀ p ∈ ps, ¬ Matches p d.className := by
  rw [show (ClassFilter.excluded ⟨ps, cs⟩).accepts d =
    !(cs.any fun t => matchesName t d.className) from rfl]
  rw [Bool.not_eq_true', ← Bool.not_eq_true, any_matchesName_iff h]
  simp

theorem accepts_included {ps : List String} {cs : List (List Token)}
    (h : List.Forall₂ (fun p t => Glob.parse (literalBracesText p) = .ok t) ps cs)
    (d : ClassDescriptor) :
    (ClassFilter.included ⟨ps, cs⟩).accepts d = true ↔ ∃ p ∈ ps, Matches p d.className :=
  any_matchesName_iff h d.className

theorem accepts_testName (d : ClassDescriptor) :
    ClassFilter.testName.accepts d = true ↔ IsTestFileName d.fileName :=
  isTestClassName_iff d.fileName

theorem accepts_concrete (d : ClassDescriptor) :
    ClassFilter.concrete.accepts d = true ↔ d.isInterface = false ∧ d.isAbstract = false := by
  simp [ClassFilter.accepts]

theorem filterChain_new_ok {includes excludes : List String} {ci cx : List (List Token)}
    (hi : compileAll includes = .ok ci) (hx : compileAll excludes = .ok cx) :
    FilterChain.new includes excludes = .ok
      ⟨(if excludes = [] then [] else [.excluded ⟨excludes, cx⟩]) ++
        (if includes = [] then [] else [.included ⟨includes, ci⟩]) ++ [.testName, .concrete]⟩ := by
  unfold FilterChain.new
  rw [PatternSet.new_of_compileAll hx, PatternSet.new_of_compileAll hi]
  by_cases hex : excludes = [] <;> by_cases hin : includes = [] <;> simp [hex, hin]

/-- Building the chain fails with the first exclude pattern that does not compile, else with the
first include pattern that does not; otherwise the chain has an exclude filter when there are
exclude patterns, an include filter when there are include patterns, then the naming and
concreteness filters, and it accepts exactly the classes its patterns and rules admit. -/
theorem filterChain_new_spec (includes excludes : List String) :
    (∀ e, FilterChain.new includes excludes = .error e ↔
      FirstFailure excludes e ∨ ((∀ p ∈ excludes, Compiles p) ∧ FirstFailure includes e)) ∧
    ((∀ p ∈ excludes, Compiles p) → (∀ p ∈ includes, Compiles p) →
      ∃ chain, FilterChain.new includes excludes = .ok chain ∧
        chain.filters.map ClassFilter.name =
          (if excludes = [] then [] else ["exclude-patterns"]) ++
            (if includes = [] then [] else ["include-patterns"]) ++ ["test-name", "concrete"] ∧
        ∀ d, chain.accepts d = true ↔ Admits includes excludes d) := by
  constructor
  · intro e
    rw [filterChain_new_eq_error, PatternSet.new_eq_error, PatternSet.new_eq_error,
      compileAll_eq_error, compileAll_eq_error, PatternSet.new_ok_iff]
  · intro hx hi
    obtain ⟨cx, hcx⟩ := compileAll_ok_iff.mpr hx
    obtain ⟨ci, hci⟩ := compileAll_ok_iff.mpr hi
    refine ⟨_, filterChain_new_ok hci hcx, ?_, ?_⟩
    · by_cases hex : excludes = [] <;> by_cases hin : includes = [] <;>
        simp [hex, hin, ClassFilter.name]
    · intro d
      have hfx := accepts_excluded (compileAll_forall₂ hcx) d
      have hfi := accepts_included (compileAll_forall₂ hci) d
      by_cases hex : excludes = [] <;> by_cases hin : includes = [] <;>
        simp only [FilterChain.accepts, Admits, hex, hin, if_true, if_false, List.nil_append,
          List.cons_append, List.all_cons, List.all_nil, Bool.and_true, Bool.and_eq_true, hfx,
          hfi, accepts_testName, accepts_concrete, true_or, List.not_mem_nil,
          false_or, true_and]

theorem filterChain_exclude_vetoes_include :
    (∀ p ∈ ["*Widget*"], Compiles p) ∧ (∀ p ∈ ["com.acme.*"], Compiles p) ∧
      ∃ chain, FilterChain.new ["com.acme.*"] ["*Widget*"] = .ok chain ∧
        chain.filters.map ClassFilter.name =
          (if ["*Widget*"] = [] then [] else ["exclude-patterns"]) ++
            (if ["com.acme.*"] = [] then [] else ["include-patterns"]) ++
            ["test-name", "concrete"] ∧
        ∀ d, chain.accepts d = true ↔ Admits ["com.acme.*"] ["*Widget*"] d :=
  have hx : ∀ p ∈ ["*Widget*"], Compiles p := by decide +kernel
  have hi : ∀ p ∈ ["com.acme.*"], Compiles p := by decide +kernel
  ⟨hx, hi, (filterChain_new_spec ["com.acme.*"] ["*Widget*"]).2 hx hi⟩

end TestDispatch.Selection
