import TestDispatch.Project.Discovery
import TestDispatch.Proofs.Sort
import Mathlib.Data.List.Nodup
import Mathlib.Data.List.Perm.Subperm
/-! What a walk of a directory visits: exactly the entries reached through directories only
(`Tree.Below`), each once, with one level per entry always enough. -/
namespace TestDispatch

def Path.joinAll (dir : Path) (ns : List String) : Path := ns.foldl Path.join dir

@[simp] theorem Path.joinAll_nil (dir : Path) : dir.joinAll [] = dir := rfl

@[simp] theorem Path.joinAll_cons (dir : Path) (n : String) (ns : List String) :
    dir.joinAll (n :: ns) = (dir.join n).joinAll ns := rfl

namespace Fs

namespace Tree

/-- A tree whose entries have distinct paths, as the entries of a file system do. -/
def Wf (t : Tree) : Prop := (t.entries.map Prod.fst).Nodup

instance : DecidablePred Wf := fun t => inferInstanceAs (Decidable (t.entries.map Prod.fst).Nodup)

/-- `ns` leads from the directory at `p` to the entry `e`, entering directories only: a symbolic
link on the way is not followed. -/
inductive Below (t : Tree) : List String → List String → Entry → Prop
  | child {p n e} : t.get? (p ++ [n]) = some e → Below t p [n] e
  | enter {p n ns e} : t.get? (p ++ [n]) = some .dir → Below t (p ++ [n]) ns e →
      Below t p (n :: ns) e

def walkChild (t : Tree) (walk : List String → List (List String × Entry)) (p : List String)
    (n : String) : List (List String × Entry) :=
  match t.get? (p ++ [n]) with
  | some .dir => ([n], .dir) :: (walk (p ++ [n])).map fun (ns, e) => (n :: ns, e)
  | some e => [([n], e)]
  | none => []

def walkFrom (t : Tree) : Nat → List String → List (List String × Entry)
  | 0, _ => []
  | fuel + 1, p => (t.names p).flatMap (t.walkChild (t.walkFrom fuel) p)

theorem get?_of_ne_nil {t : Tree} {q : List String} (hq : q ≠ []) :
    t.get? q = (t.entries.find? (·.1 = q)).map (·.2) := by
  simp [get?, hq]

theorem get?_eq_some {t : Tree} {q : List String} {e : Entry} (hq : q ≠ [])
    (h : t.get? q = some e) : (q, e) ∈ t.entries := by
  rw [get?_of_ne_nil hq, Option.map_eq_some_iff] at h
  obtain ⟨x, hx, rfl⟩ := h
  have hmem := List.mem_of_find?_eq_some hx
  have hkey : x.1 = q := by simpa using List.find?_some hx
  rw [← hkey]
  exact hmem

theorem get?_isSome_of_mem {t : Tree} {q : List String} {e : Entry} (hq : q ≠ [])
    (h : (q, e) ∈ t.entries) : ∃ e', t.get? q = some e' := by
  rw [get?_of_ne_nil hq]
  have hsome : (t.entries.find? (·.1 = q)).isSome :=
    List.find?_isSome.mpr ⟨(q, e), h, by simp⟩
  obtain ⟨x, hx⟩ := Option.isSome_iff_exists.mp hsome
  exact ⟨x.2, by rw [hx]; rfl⟩

theorem childName_eq_some {p q : List String} {n : String} :
    (if q.length = p.length + 1 ∧ p.isPrefixOf q = true then q.getLast? else none) = some n ↔
      q = p ++ [n] := by
  constructor
  · intro h
    split at h
    · rename_i hcond
      obtain ⟨hlen, hpre⟩ := hcond
      obtain ⟨r, rfl⟩ := List.isPrefixOf_iff_prefix.mp hpre
      obtain ⟨m, rfl⟩ : ∃ m, r = [m] := by
        match r, hlen with
        | [m], _ => exact ⟨m, rfl⟩
        | [], h => simp at h
        | _ :: _ :: _, h => simp at h
      simp only [List.getLast?_append, List.getLast?_singleton, Option.some_or,
        Option.some.injEq] at h
      rw [h]
    · cases h
  · rintro rfl
    simp [List.isPrefixOf_iff_prefix]

theorem mem_names {t : Tree} {p : List String} {n : String} :
    n ∈ t.names p ↔ ∃ e, t.get? (p ++ [n]) = some e := by
  unfold names
  rw [mem_sortBy, List.mem_filterMap]
  constructor
  · rintro ⟨⟨q, e⟩, hmem, hq⟩
    rw [childName_eq_some.mp hq] at hmem
    exact get?_isSome_of_mem (by simp) hmem
  · rintro ⟨e, he⟩
    exact ⟨(p ++ [n], e), get?_eq_some (by simp) he, childName_eq_some.mpr rfl⟩

theorem nodup_names {t : Tree} (ht : t.Wf) (p : List String) : (t.names p).Nodup := by
  unfold names
  refine (sortBy_perm _).nodup_iff.mpr ?_
  rw [show t.entries.filterMap (fun x => if x.1.length = p.length + 1 ∧ p.isPrefixOf x.1 = true
      then x.1.getLast? else none) = (t.entries.map Prod.fst).filterMap (fun q =>
      if q.length = p.length + 1 ∧ p.isPrefixOf q = true then q.getLast? else none) by
    simp [List.filterMap_map]]
  refine List.Nodup.filterMap ?_ ht
  intro q q' n hn hn'
  rw [childName_eq_some.mp hn, childName_eq_some.mp hn']

theorem Below.ne_nil {t : Tree} {p ns : List String} {e : Entry} (h : t.Below p ns e) :
    ns ≠ [] := by
  cases h <;> simp

theorem Below.forall_names {t : Tree} {P : String → Prop} (hP : ∀ x ∈ t.entries, ∀ n ∈ x.1, P n)
    {p ns : List String} {e : Entry} (h : t.Below p ns e) : ∀ n ∈ ns, P n := by
  induction h with
  | child hget =>
    intro n hn
    rw [List.mem_singleton.mp hn]
    exact hP _ (get?_eq_some (by simp) hget) _ (by simp)
  | enter hget _ ih =>
    intro n hn
    rcases List.mem_cons.mp hn with rfl | hn
    · exact hP _ (get?_eq_some (by simp) hget) _ (by simp)
    · exact ih n hn

theorem mem_walkFrom {t : Tree} {fuel : Nat} {p ns : List String} {e : Entry} :
    (ns, e) ∈ t.walkFrom fuel p ↔ t.Below p ns e ∧ ns.length ≤ fuel := by
  induction fuel generalizing p ns e with
  | zero =>
    simp only [walkFrom, List.not_mem_nil, false_iff, not_and, Nat.le_zero,
      List.length_eq_zero_iff]
    exact fun h => h.ne_nil
  | succ fuel ih =>
    simp only [walkFrom, List.mem_flatMap]
    constructor
    · rintro ⟨n, -, hmem⟩
      unfold walkChild at hmem
      split at hmem
      · rename_i hdir
        rcases List.mem_cons.mp hmem with heq | hmem
        · obtain ⟨rfl, rfl⟩ := Prod.mk.inj heq
          exact ⟨.child hdir, by simp⟩
        · obtain ⟨⟨ns', e'⟩, hmem', heq⟩ := List.mem_map.mp hmem
          obtain ⟨rfl, rfl⟩ := Prod.mk.inj heq
          obtain ⟨hbelow, hlen⟩ := ih.mp hmem'
          exact ⟨.enter hdir hbelow, by simpa using hlen⟩
      · rename_i e' _ hget
        obtain ⟨rfl, rfl⟩ := Prod.mk.inj (List.mem_singleton.mp hmem)
        exact ⟨.child hget, by simp⟩
      · cases hmem
    · rintro ⟨hbelow, hlen⟩
      cases hbelow with
      | @child _ n _ hget =>
        refine ⟨n, mem_names.mpr ⟨e, hget⟩, ?_⟩
        rw [walkChild, hget]
        cases e <;> simp
      | @enter _ n ns' _ hdir hbelow =>
        refine ⟨n, mem_names.mpr ⟨.dir, hdir⟩, ?_⟩
        rw [walkChild, hdir]
        simp only [List.mem_cons, List.mem_map]
        exact .inr ⟨(ns', e), ih.mpr ⟨hbelow, by simpa using hlen⟩, rfl⟩

theorem head_of_mem_walkChild {t : Tree} {walk : List String → List (List String × Entry)}
    {p : List String} {n : String} {ns : List String}
    (h : ns ∈ (t.walkChild walk p n).map Prod.fst) : ns.head? = some n := by
  unfold walkChild at h
  split at h <;> simp at h
  · rcases h with rfl | ⟨_, _, rfl⟩ <;> rfl
  · rw [h]
    rfl

/-- The walk lists each entry once: what it lists under one name starts with that name, and
the names of a directory are distinct. -/
theorem nodup_walkFrom {t : Tree} (ht : t.Wf) (fuel : Nat) (p : List String) :
    ((t.walkFrom fuel p).map Prod.fst).Nodup := by
  induction fuel generalizing p with
  | zero => simp [walkFrom]
  | succ fuel ih =>
    simp only [walkFrom, List.map_flatMap]
    rw [List.nodup_flatMap]
    refine ⟨fun n _ => ?_, (nodup_names ht p).imp fun hne ns h1 h2 => ?_⟩
    · unfold walkChild
      split
      · simp only [List.map_cons, List.map_map, List.nodup_cons]
        constructor
        · simp only [List.mem_map, Function.comp_apply, not_exists, not_and]
          intro ⟨ns, e⟩ hmem heq
          have := (mem_walkFrom.mp hmem).1.ne_nil
          simp_all
        · have hmap : (t.walkFrom fuel (p ++ [n])).map (fun x => (n :: x.1, x.2).1) =
              ((t.walkFrom fuel (p ++ [n])).map Prod.fst).map (n :: ·) := by
            simp [List.map_map, Function.comp_def]
          rw [Function.comp_def, hmap]
          exact (ih (p ++ [n])).map List.cons_injective
      · simp
      · simp
    · exact hne (Option.some.inj ((head_of_mem_walkChild h1).symm.trans
        (head_of_mem_walkChild h2)))

theorem Below.prefix_mem {t : Tree} {p ns : List String} {e : Entry} (h : t.Below p ns e) :
    ∀ k < ns.length, p ++ ns.take (k + 1) ∈ t.entries.map Prod.fst := by
  induction h with
  | @child p n e hget =>
    intro k hk
    obtain rfl : k = 0 := by simpa using hk
    exact List.mem_map.mpr ⟨(p ++ [n], e), get?_eq_some (by simp) hget, rfl⟩
  | @enter p n ns e hdir _ ih =>
    intro k hk
    cases k with
    | zero => exact List.mem_map.mpr ⟨(p ++ [n], .dir), get?_eq_some (by simp) hdir, rfl⟩
    | succ k =>
      have := ih k (by simpa using hk)
      simpa using this

/-- A walk as deep as the tree has entries reaches everything: the directories on the way to an
entry are distinct entries of the tree. -/
theorem Below.length_le {t : Tree} {p ns : List String} {e : Entry}
    (h : t.Below p ns e) : ns.length ≤ t.entries.length := by
  let along := (List.range ns.length).map fun k => p ++ ns.take (k + 1)
  have hnodup : along.Nodup := by
    refine List.Nodup.map_on ?_ List.nodup_range
    intro k hk k' hk' heq
    have := congrArg List.length heq
    simp only [List.mem_range] at hk hk'
    simp only [List.length_append, List.length_take] at this
    omega
  have hsub : along ⊆ t.entries.map Prod.fst := by
    intro q hq
    obtain ⟨k, hk, rfl⟩ := List.mem_map.mp hq
    exact h.prefix_mem k (List.mem_range.mp hk)
  have := (List.subperm_of_subset hnodup hsub).length_le
  simpa [along] using this

theorem mem_walkFrom_complete {t : Tree} {p ns : List String} {e : Entry} :
    (ns, e) ∈ t.walkFrom (t.entries.length + 1) p ↔ t.Below p ns e := by
  rw [mem_walkFrom]
  exact ⟨And.left, fun h => ⟨h, Nat.le_succ_of_le h.length_le⟩⟩

end Tree

end Fs

namespace Project

open Fs

/-- The walk of discovery names each entry by the path from `dir`. -/
theorem walkEntries_eq_map (t : Tree) (fuel : Nat) (dir : Path) (p : List String) :
    walkEntries t fuel dir p = (t.walkFrom fuel p).map fun (ns, e) => (dir.joinAll ns, e) := by
  induction fuel generalizing dir p with
  | zero => simp [walkEntries, Tree.walkFrom]
  | succ fuel ih =>
    simp only [walkEntries, Tree.walkFrom, List.map_flatMap]
    congr 1
    funext n
    unfold Tree.walkChild
    rcases t.get? (p ++ [n]) with _ | e
    · rfl
    · cases e <;> simp [ih, Function.comp_def]

end Project

end TestDispatch
