import TestDispatch.Proofs.Project.Load
/-! Selecting modules: missing names are reported once each in request order, and otherwise the
selection is the ascending indices that `Selected` admits. -/
namespace TestDispatch.Project

/-- `missing` lists the names of `requested` that are not in `names`, each once, in the order of
their first request. -/
def MissingNames (names requested missing : List String) : Prop :=
  (∀ n, n ∈ missing ↔ n ∈ requested ∧ n ∉ names) ∧
    (missing.map requested.idxOf).Pairwise (· < ·)

/-- `included` lists, in ascending order, the indices of the modules the options select. -/
def SelectedIndices (modules : List Module) (options : ProjectOptions) (included : List Nat) :
    Prop :=
  included.Pairwise (· < ·) ∧ ∀ i, i ∈ included ↔ ∃ h : i < modules.length, Selected options modules[i]

/-- What selecting modules may give: the missing names, when a requested name is no module's;
the selected indices, when every requested name is a module's; and no other failure. -/
def SelectionResult (modules : List Module) (options : ProjectOptions) :
    Except ProjectError (List Nat) → Prop
  | .error (.modulesNotFound missing) => ∃ requested, options.includeModules = some requested ∧
      missing ≠ [] ∧ MissingNames (modules.map Module.name) requested missing
  | .error _ => False
  | .ok included =>
    (∀ requested ∈ options.includeModules, ∀ n ∈ requested, n ∈ modules.map Module.name) ∧
      SelectedIndices modules options included

theorem mem_dedupFrom {seen xs : List String} {x : String} :
    x ∈ dedupFrom seen xs ↔ x ∈ xs ∧ x ∉ seen := by
  induction xs generalizing seen with
  | nil => simp [dedupFrom]
  | cons y ys ih =>
    by_cases hy : y ∈ seen
    · simp only [dedupFrom, List.contains_iff_mem, hy, if_true, ih, List.mem_cons]
      constructor
      · rintro ⟨hx, hs⟩
        exact ⟨.inr hx, hs⟩
      · rintro ⟨rfl | hx, hs⟩
        · exact absurd hy hs
        · exact ⟨hx, hs⟩
    · simp only [dedupFrom, List.contains_iff_mem, hy, if_false, List.mem_cons, ih]
      constructor
      · rintro (rfl | ⟨hx, hs⟩)
        · exact ⟨.inl rfl, hy⟩
        · exact ⟨.inr hx, fun h => hs (.inr h)⟩
      · rintro ⟨rfl | hx, hs⟩
        · exact .inl rfl
        · by_cases hxy : x = y
          · exact .inl hxy
          · exact .inr ⟨hx, by simp [hxy, hs]⟩

theorem pairwise_idxOf_cons {l ys : List String} {x : String} (hx : x ∉ ys)
    (h : (ys.map l.idxOf).Pairwise (· < ·)) : (ys.map (x :: l).idxOf).Pairwise (· < ·) := by
  rw [List.pairwise_map] at h ⊢
  refine h.imp_of_mem ?_
  intro a b ha hb hab
  have hxa : x ≠ a := by rintro rfl; exact hx ha
  have hxb : x ≠ b := by rintro rfl; exact hx hb
  rw [List.idxOf_cons_ne l hxa, List.idxOf_cons_ne l hxb]
  omega

theorem pairwise_idxOf_dedupFrom (l : List String) (p : String → Bool) (seen : List String) :
    ((dedupFrom seen (l.filter p)).map l.idxOf).Pairwise (· < ·) := by
  induction l generalizing seen with
  | nil => simp [dedupFrom]
  | cons x l ih =>
    by_cases hp : p x
    · rw [List.filter_cons_of_pos hp]
      by_cases hx : x ∈ seen
      · simp only [dedupFrom, List.contains_iff_mem, hx, if_true]
        exact pairwise_idxOf_cons (fun h => (mem_dedupFrom.mp h).2 hx) (ih seen)
      · simp only [dedupFrom, List.contains_iff_mem, hx, if_false, List.map_cons,
          List.pairwise_cons, List.mem_map]
        refine ⟨?_, pairwise_idxOf_cons (fun h => (mem_dedupFrom.mp h).2 List.mem_cons_self)
          (ih (x :: seen))⟩
        rintro _ ⟨y, hy, rfl⟩
        have hne : x ≠ y := fun h => (mem_dedupFrom.mp hy).2 (h ▸ List.mem_cons_self)
        rw [List.idxOf_cons_self, List.idxOf_cons_ne l hne]
        omega
    · rw [List.filter_cons_of_neg hp]
      refine pairwise_idxOf_cons (fun h => ?_) (ih seen)
      exact hp (List.mem_filter.mp (mem_dedupFrom.mp h).1).2

theorem dedup_missingNames (names requested : List String) :
    MissingNames names requested (dedup (requested.filter (· ∉ names))) := by
  refine ⟨fun n => ?_, pairwise_idxOf_dedupFrom requested _ []⟩
  simp [dedup, mem_dedupFrom]

theorem selectModules_sublist {modules : List Module} {options : ProjectOptions}
    {included : List Nat} (h : selectModules modules options = .ok included) :
    List.Sublist included (List.range modules.length) := by
  unfold selectModules at h
  cases hreq : options.includeModules with
  | none =>
    simp only [hreq, Except.pure_def, Except.ok_bind, Except.ok.injEq] at h
    rw [← h]
    exact List.filter_sublist
  | some requested =>
    simp only [hreq] at h
    split at h
    · simp only [Except.pure_def, Except.ok_bind, Except.ok.injEq] at h
      rw [← h, List.range_eq_range', ← List.zipIdx_map_snd 0 modules]
      exact List.filter_sublist.trans (List.filter_sublist.map _)
    · simp at h

theorem selectedIndices_of_ok {modules : List Module} {options : ProjectOptions}
    {included : List Nat} (h : selectModules modules options = .ok included) :
    (∀ requested ∈ options.includeModules, ∀ n ∈ requested, n ∈ modules.map Module.name) ∧
      SelectedIndices modules options included := by
  have hfound : ∀ requested ∈ options.includeModules, ∀ n ∈ requested,
      n ∈ modules.map Module.name := by
    intro requested hreq n hn
    by_contra hnot
    rw [selectModules_eq_error hreq ⟨n, hn, hnot⟩] at h
    cases h
  obtain ⟨included', hok, hsel⟩ := selectModules_ok hfound
  obtain rfl : included' = included := Except.ok.inj (hok.symm.trans h)
  have hsub := selectModules_sublist h
  refine ⟨hfound, List.pairwise_lt_range.sublist hsub, fun i => ⟨fun hi => ?_, ?_⟩⟩
  · have hlt : i < modules.length := List.mem_range.mp (hsub.subset hi)
    refine ⟨hlt, ?_⟩
    have := hsel modules[i] i (List.mem_zipIdx_iff_getElem?.mpr (List.getElem?_eq_getElem hlt))
    simpa [hi] using this.symm
  · rintro ⟨hlt, hs⟩
    have := hsel modules[i] i (List.mem_zipIdx_iff_getElem?.mpr (List.getElem?_eq_getElem hlt))
    simpa [hs] using this

/-- Selection gives what `SelectionResult` says, and whether and how it fails does not depend on
the excluded names. -/
theorem selectModules_spec (modules : List Module) (options : ProjectOptions) :
    SelectionResult modules options (selectModules modules options) ∧
      ∀ excluded e, selectModules modules { options with excludeModules := excluded } = .error e ↔
        selectModules modules options = .error e := by
  by_cases hmissing : ∃ requested ∈ options.includeModules, ∃ n ∈ requested,
      n ∉ modules.map Module.name
  · obtain ⟨requested, hreq, hn⟩ := hmissing
    have hreq : options.includeModules = some requested := hreq
    have hne : dedup (requested.filter (· ∉ modules.map Module.name)) ≠ [] := by
      rw [Ne, dedup_eq_nil, List.filter_eq_nil_iff]
      obtain ⟨n, hn, hnot⟩ := hn
      exact fun h => h n hn (by simpa using hnot)
    refine ⟨?_, fun excluded e => ?_⟩
    · rw [selectModules_eq_error hreq hn]
      exact ⟨requested, hreq, hne, dedup_missingNames _ _⟩
    -- the requested modules are the same with any excluded names, and so is the failure
    · rw [selectModules_eq_error hreq hn,
        @selectModules_eq_error _ { options with excludeModules := excluded } _ hreq hn]
  · push Not at hmissing
    obtain ⟨included, hok, -⟩ := selectModules_ok hmissing
    refine ⟨?_, fun excluded e => ?_⟩
    · rw [hok]
      exact selectedIndices_of_ok hok
    · obtain ⟨included', hok', -⟩ :=
        @selectModules_ok modules { options with excludeModules := excluded } hmissing
      rw [hok, hok']
      simp

example : selectModules [{ root := ⟨"/p/core"⟩, name := "core" }, { root := ⟨"/p/app"⟩, name := "app" }]
    { includeModules := some ["x", "core", "x", "y"], excludeModules := ["x"] } =
      .error (.modulesNotFound ["x", "y"]) := by decide

example : selectModules [{ root := ⟨"/p/core"⟩, name := "core" },
      { root := ⟨"/p/app"⟩, name := "app" }, { root := ⟨"/q/core"⟩, name := "core" }]
    { includeModules := some ["core", "app"], excludeModules := ["app"] } = .ok [0, 2] := by
  decide

end TestDispatch.Project
