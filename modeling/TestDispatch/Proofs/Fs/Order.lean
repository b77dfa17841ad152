import TestDispatch.Proofs.Fs.Walk
import Mathlib.Data.List.Find
import Mathlib.Data.String.Basic
/-! The order in which a tree holds its entries cannot be observed: trees with the same entries
answer every lookup, listing and walk alike. -/
namespace TestDispatch.Fs

namespace Tree

/-- `t` and `t'` cannot be told apart by looking a path up, listing a directory, or counting
entries. -/
structure Equiv (t t' : Tree) : Prop where
  get? : t.get? = t'.get?
  names : t.names = t'.names
  length : t.entries.length = t'.entries.length

theorem pairwise_names (t : Tree) (p : List String) : (t.names p).Pairwise (· ≤ ·) := by
  unfold names
  refine List.Pairwise.imp (fun h => of_decide_eq_true h) (pairwise_sortBy ?_ ?_ _)
  · intro a b c hab hbc
    exact decide_eq_true (le_trans (of_decide_eq_true hab) (of_decide_eq_true hbc))
  · intro a b
    simpa using le_total a b

/-- Directory listings are sorted, so they do not depend on the order of the entries. -/
theorem names_eq_of_perm {t t' : Tree} (h : t.entries.Perm t'.entries) : t.names = t'.names := by
  funext p
  refine List.Perm.eq_of_pairwise (fun a b _ _ => le_antisymm) (pairwise_names t p)
    (pairwise_names t' p) ?_
  exact (sortBy_perm _).trans ((h.filterMap _).trans (sortBy_perm _).symm)

theorem get?_eq_of_perm {t t' : Tree} (ht : t.Wf) (h : t.entries.Perm t'.entries) :
    t.get? = t'.get? := by
  funext q
  have hfind : t.entries.find? (·.1 = q) = t'.entries.find? (·.1 = q) := by
    refine List.find?_eq_find?_of_perm h ?_
    rintro x ⟨hx, hxq⟩ y ⟨hy, hyq⟩
    exact List.inj_on_of_nodup_map ht hx hy ((of_decide_eq_true hxq).trans (of_decide_eq_true hyq).symm)
  simp only [get?, hfind]

theorem Equiv.of_perm {t t' : Tree} (ht : t.Wf) (h : t.entries.Perm t'.entries) : t.Equiv t' :=
  ⟨get?_eq_of_perm ht h, names_eq_of_perm h, h.length_eq⟩

section Congr

variable {t t' : Tree} (h : t.Equiv t')
include h

theorem Equiv.walk : t.walk = t'.walk := by
  funext fuel
  induction fuel with
  | zero => rfl
  | succ fuel ih =>
    funext links cur cs follow dirOnly
    cases cs with
    | nil => rfl
    | cons c cs => simp only [Tree.walk, h.get?, ih]

theorem Equiv.resolve : t.resolve = t'.resolve := by
  funext cwd path follow
  simp only [Tree.resolve, h.walk]

theorem Equiv.stat : t.stat = t'.stat := by
  funext cwd path
  simp only [Tree.stat, h.resolve]

theorem Equiv.isFile : t.isFile = t'.isFile := by
  funext cwd path
  simp only [Tree.isFile, h.stat]

theorem Equiv.isDir : t.isDir = t'.isDir := by
  funext cwd path
  simp only [Tree.isDir, h.stat]

theorem Equiv.readBytes : t.readBytes = t'.readBytes := by
  funext cwd path
  simp only [Tree.readBytes, h.stat]

theorem Equiv.readDir : t.readDir = t'.readDir := by
  funext cwd path
  simp only [Tree.readDir, h.stat, h.names, h.get?]

theorem Equiv.walkChild : t.walkChild = t'.walkChild := by
  funext walk p n
  simp only [Tree.walkChild, h.get?]

theorem Equiv.walkFrom : t.walkFrom = t'.walkFrom := by
  funext fuel
  induction fuel with
  | zero => rfl
  | succ fuel ih =>
    funext p
    simp only [Tree.walkFrom, h.walkChild, h.names, ih]

end Congr

end Tree

end TestDispatch.Fs
