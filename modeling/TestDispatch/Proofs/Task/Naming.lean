import TestDispatch.Task.Package
import Mathlib
/-! How packaging names a test: `uniqueName` follows the tiered rule `TaskName`, and its counter
stays within the names in use. -/
namespace TestDispatch.Task

def qualifiedName (base moduleName : String) : String := base ++ "@" ++ moduleName

def numberedName (base moduleName : String) (k : Nat) : String :=
  qualifiedName base moduleName ++ "." ++ toString k

/-- `name` is the name the tiered rule gives a class named `base` in module `moduleName` while
the names `used` are taken, with the renaming counter ending at `n`: the class name when it is
free (`n = 0`); else `base@module` when that is free (`n = 1`); else `base@module.n` for the
least `n ≥ 2` that is free. -/
inductive TaskName (used : List String) (base moduleName : String) : Nat → String → Prop
  | plain : base ∉ used → TaskName used base moduleName 0 base
  | qualified : base ∈ used → qualifiedName base moduleName ∉ used →
      TaskName used base moduleName 1 (qualifiedName base moduleName)
  | numbered {k : Nat} : base ∈ used → qualifiedName base moduleName ∈ used → 2 ≤ k →
      (∀ j, 2 ≤ j → j < k → numberedName base moduleName j ∈ used) →
      numberedName base moduleName k ∉ used →
      TaskName used base moduleName k (numberedName base moduleName k)

theorem TaskName.not_mem {used : List String} {base moduleName name : String} {n : Nat}
    (h : TaskName used base moduleName n name) : name ∉ used := by
  cases h with
  | plain hfree => exact hfree
  | qualified _ hfree => exact hfree
  | numbered _ _ _ _ hfree => exact hfree

def candidateName (base moduleName : String) (n : Nat) : String :=
  if n = 1 then qualifiedName base moduleName else numberedName base moduleName n

theorem go_spec {used : List String} {base moduleName : String} (fuel n : Nat)
    (hfree : ∃ j, n ≤ j ∧ j < n + fuel ∧ candidateName base moduleName j ∉ used) :
    ∃ k, n ≤ k ∧ (∀ j, n ≤ j → j < k → candidateName base moduleName j ∈ used) ∧
      candidateName base moduleName k ∉ used ∧
      uniqueName.go used (qualifiedName base moduleName) fuel n = candidateName base moduleName k := by
  induction fuel generalizing n with
  | zero =>
    obtain ⟨j, hnj, hjn, -⟩ := hfree
    omega
  | succ fuel ih =>
    have hstep : uniqueName.go used (qualifiedName base moduleName) (fuel + 1) n =
        if used.contains (candidateName base moduleName n) then
          uniqueName.go used (qualifiedName base moduleName) fuel (n + 1)
        else candidateName base moduleName n := rfl
    by_cases hn : candidateName base moduleName n ∈ used
    · obtain ⟨j, hnj, hjn, hj⟩ := hfree
      have hne : j ≠ n := fun h => hj (h ▸ hn)
      obtain ⟨k, hk, hbelow, hk', hgo⟩ := ih (n + 1) ⟨j, by omega, by omega, hj⟩
      refine ⟨k, by omega, fun i hi hik => ?_, hk', ?_⟩
      · rcases Nat.eq_or_lt_of_le hi with rfl | hi
        · exact hn
        · exact hbelow i hi hik
      · rw [hstep, if_pos (List.contains_iff_mem.mpr hn), hgo]
    · refine ⟨n, Nat.le_refl n, fun i hi hin => absurd hin (by omega), hn, ?_⟩
      rw [hstep, if_neg (by simpa using hn)]

theorem length_candidateName (base moduleName : String) (n : Nat) :
    base.length < (candidateName base moduleName n).length := by
  have hat : "@".length = 1 := rfl
  unfold candidateName numberedName qualifiedName
  split <;> simp only [String.length_append, hat] <;> omega

/-- The candidates are distinct: the qualified name is shorter than every numbered one, and the
numbered ones differ in their numbers. -/
theorem candidateName_inj {base moduleName : String} {i j : Nat} (hi : 1 ≤ i) (hj : 1 ≤ j)
    (h : candidateName base moduleName i = candidateName base moduleName j) : i = j := by
  have hlong : ∀ k, 2 ≤ k → (qualifiedName base moduleName).length <
      (numberedName base moduleName k).length := by
    intro k _
    have hdot : ".".length = 1 := rfl
    simp only [numberedName, String.length_append, hdot]
    omega
  unfold candidateName at h
  split at h <;> split at h
  · omega
  · have := hlong j (by omega)
    rw [h] at this
    omega
  · have := hlong i (by omega)
    rw [h] at this
    omega
  · simp only [numberedName, String.append_assoc, String.append_right_inj] at h
    exact Nat.repr_inj.mp h

/-- Counting the names in use: the class name and the candidates tried before the counter
reached `k` are `k` distinct names in use. -/
theorem counter_le_length {used : List String} {base moduleName : String} {k : Nat}
    (hbase : base ∈ used)
    (hbelow : ∀ j, 1 ≤ j → j < k → candidateName base moduleName j ∈ used) :
    k ≤ used.length := by
  let tried := base :: (List.range' 1 (k - 1)).map (candidateName base moduleName)
  have hnodup : tried.Nodup := by
    refine List.nodup_cons.mpr ⟨?_, ?_⟩
    · intro hmem
      obtain ⟨j, -, hj⟩ := List.mem_map.mp hmem
      have := length_candidateName base moduleName j
      rw [hj] at this
      omega
    · refine List.Nodup.map_on ?_ (List.nodup_range' 1)
      intro i hi j hj hij
      simp only [List.mem_range'_1] at hi hj
      exact candidateName_inj hi.1 hj.1 hij
  have hsub : tried ⊆ used := by
    intro x hx
    rcases List.mem_cons.mp hx with rfl | hx
    · exact hbase
    · obtain ⟨j, hj, rfl⟩ := List.mem_map.mp hx
      simp only [List.mem_range'_1] at hj
      exact hbelow j hj.1 (by omega)
  have := (List.subperm_of_subset hnodup hsub).length_le
  simp only [tried, List.length_cons, List.length_map, List.length_range'] at this
  omega

theorem candidateName_of_two_le {base moduleName : String} {j : Nat} (hj : 2 ≤ j) :
    candidateName base moduleName j = numberedName base moduleName j :=
  if_neg (by omega)

theorem TaskName.of_first_free {used : List String} {base moduleName : String} {k : Nat}
    (hbase : base ∈ used) (hk : 1 ≤ k)
    (hbelow : ∀ j, 1 ≤ j → j < k → candidateName base moduleName j ∈ used)
    (hfree : candidateName base moduleName k ∉ used) :
    TaskName used base moduleName k (candidateName base moduleName k) := by
  rcases Nat.eq_or_lt_of_le hk with rfl | hk2
  · exact .qualified hbase hfree
  · have hq : qualifiedName base moduleName ∈ used := hbelow 1 (Nat.le_refl 1) hk2
    rw [candidateName_of_two_le hk2] at hfree ⊢
    refine .numbered hbase hq hk2 (fun j hj hjk => ?_) hfree
    rw [← candidateName_of_two_le hj]
    exact hbelow j (by omega) hjk

theorem exists_free_candidate {used : List String} {base : String} (moduleName : String)
    (hbase : base ∈ used) :
    ∃ j, 1 ≤ j ∧ j < 1 + (used.length + 1) ∧ candidateName base moduleName j ∉ used := by
  by_contra hall
  have hcount : used.length + 1 ≤ used.length :=
    counter_le_length hbase fun j hj hjk =>
      Classical.byContradiction fun hj' => hall ⟨j, hj, by omega, hj'⟩
  omega

theorem uniqueName_of_not_mem {used : List String} {base : String} (moduleName : String)
    (hbase : base ∉ used) : uniqueName used base moduleName = base := by
  rw [uniqueName, if_pos (by simpa using hbase)]

theorem uniqueName_of_mem {used : List String} {base : String} (moduleName : String)
    (hbase : base ∈ used) :
    uniqueName used base moduleName =
      uniqueName.go used (qualifiedName base moduleName) (used.length + 1) 1 := by
  rw [uniqueName, if_neg (by simp [hbase])]
  rfl

/-- `uniqueName` follows the tiered rule, and its counter never passes the number of names in
use, so the loop never runs out of its `used.length + 1` steps. -/
theorem uniqueName_spec (used : List String) (base moduleName : String) :
    ∃ n ≤ used.length, TaskName used base moduleName n (uniqueName used base moduleName) := by
  by_cases hbase : base ∈ used
  · obtain ⟨k, hk, hbelow, hfree, hgo⟩ :=
      go_spec (used.length + 1) 1 (exists_free_candidate moduleName hbase)
    refine ⟨k, counter_le_length hbase hbelow, ?_⟩
    rw [uniqueName_of_mem moduleName hbase, hgo]
    exact TaskName.of_first_free hbase hk hbelow hfree
  · rw [uniqueName_of_not_mem moduleName hbase]
    exact ⟨0, Nat.zero_le _, .plain hbase⟩

theorem uniqueName_not_mem (used : List String) (base moduleName : String) :
    uniqueName used base moduleName ∉ used := by
  obtain ⟨_, _, hname⟩ := uniqueName_spec used base moduleName
  exact hname.not_mem

end TestDispatch.Task
