import TestDispatch.Sort
import Mathlib.Data.List.Sort
/-! `sortBy` is the library's insertion sort, so it keeps the elements of its input, and for a
total and transitive order it sorts them and keeps every sorted sublist of its input in place:
the sort is stable. -/
namespace TestDispatch

variable {α : Type} {le : α → α → Bool}

theorem insertBy_eq_orderedInsert (a : α) (l : List α) :
    insertBy le a l = l.orderedInsert (fun a b => le a b) a := by
  induction l with
  | nil => rfl
  | cons b l ih => simp [insertBy, ih]

theorem sortBy_eq_insertionSort (l : List α) :
    sortBy le l = l.insertionSort fun a b => le a b := by
  induction l with
  | nil => rfl
  | cons a l ih => rw [sortBy, ih, insertBy_eq_orderedInsert, List.insertionSort_cons]

theorem sortBy_perm (l : List α) : (sortBy le l).Perm l := by
  rw [sortBy_eq_insertionSort]
  exact List.perm_insertionSort _ l

theorem mem_sortBy {a : α} {l : List α} : a ∈ sortBy le l ↔ a ∈ l :=
  (sortBy_perm l).mem_iff

theorem pairwise_sortBy (trans : ∀ a b c, le a b → le b c → le a c)
    (total : ∀ a b, (le a b || le b a) = true) (l : List α) :
    (sortBy le l).Pairwise fun a b => le a b := by
  have : Std.Total fun a b => le a b = true := ⟨fun a b => by simpa using total a b⟩
  have : IsTrans α fun a b => le a b = true := ⟨trans⟩
  rw [sortBy_eq_insertionSort]
  exact List.pairwise_insertionSort _ l

/-- Elements already in order stay in that order: the sort is stable. -/
theorem sublist_sortBy {c l : List α} (hc : c.Pairwise fun a b => le a b) (hsub : c.Sublist l) :
    c.Sublist (sortBy le l) := by
  rw [sortBy_eq_insertionSort]
  exact List.sublist_insertionSort hc hsub

end TestDispatch
