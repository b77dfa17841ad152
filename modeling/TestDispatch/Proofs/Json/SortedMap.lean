import TestDispatch.Proofs.Json.ReadObject
import Mathlib.Data.String.Basic
/-! The map of an object's members: inserting members in order into a sorted list keeps each key
once, with its last value (`mapOf_insertAll`). -/
namespace TestDispatch.Json

section Insert

variable {k v : String} {m : List (String × String)}

theorem ne_of_lt_head {k₀ v₀ : String} {rest : List (String × String)}
    (hm : ((k₀, v₀) :: rest).Pairwise (·.1 < ·.1)) (hk : k ≤ k₀) :
    ∀ x ∈ rest, x.1 ≠ k := by
  intro x hx hxk
  have := List.rel_of_pairwise_cons hm hx
  rw [hxk] at this
  exact absurd (lt_of_le_of_lt hk this) (lt_irrefl k)

/-- Inserting into a sorted list puts the key with its value in place of any value it had. -/
theorem mem_insertSorted (hm : m.Pairwise (·.1 < ·.1)) {k' v' : String} :
    (k', v') ∈ insertSorted k v m ↔ (k' = k ∧ v' = v) ∨ (k' ≠ k ∧ (k', v') ∈ m) := by
  induction m with
  | nil => simp [insertSorted]
  | cons kv rest ih =>
    obtain ⟨k₀, v₀⟩ := kv
    have hrest := ne_of_lt_head (k := k) hm
    unfold insertSorted
    split_ifs with hlt heq
    · -- before the head: every key of the list is above it
      constructor
      · rintro (⟨⟩ | ⟨_, hmem⟩)
        · exact .inl ⟨rfl, rfl⟩
        · exact .inr ⟨fun h => by
            rcases List.mem_cons.mp hmem with he | hx
            · cases he; exact absurd hlt (h ▸ lt_irrefl k')
            · exact hrest hlt.le _ hx h, hmem⟩
      · rintro (⟨rfl, rfl⟩ | ⟨-, hmem⟩)
        · exact List.mem_cons_self ..
        · exact List.mem_cons_of_mem _ hmem
    · -- in place of the head
      subst heq
      constructor
      · rintro (⟨⟩ | ⟨_, hmem⟩)
        · exact .inl ⟨rfl, rfl⟩
        · exact .inr ⟨hrest le_rfl (k', v') hmem, List.mem_cons_of_mem _ hmem⟩
      · rintro (⟨rfl, rfl⟩ | ⟨hne, hmem⟩)
        · exact List.mem_cons_self ..
        · rcases List.mem_cons.mp hmem with he | hx
          · cases he; exact absurd rfl hne
          · exact List.mem_cons_of_mem _ hx
    · -- after the head
      rw [List.mem_cons, List.mem_cons, ih (List.Pairwise.of_cons hm)]
      have hgt : k₀ < k := lt_of_le_of_ne (not_lt.mp hlt) (Ne.symm heq)
      constructor
      · rintro (he | h)
        · cases he; exact .inr ⟨hgt.ne, .inl rfl⟩
        · rcases h with h | ⟨hne, hx⟩
          · exact .inl h
          · exact .inr ⟨hne, .inr hx⟩
      · rintro (h | ⟨hne, he | hx⟩)
        · exact .inr (.inl h)
        · exact .inl he
        · exact .inr (.inr ⟨hne, hx⟩)

theorem insertSorted_sorted (hm : m.Pairwise (·.1 < ·.1)) :
    (insertSorted k v m).Pairwise (·.1 < ·.1) := by
  induction m with
  | nil => simp [insertSorted]
  | cons kv rest ih =>
    obtain ⟨k₀, v₀⟩ := kv
    have hrest := List.pairwise_cons.mp hm
    unfold insertSorted
    split_ifs with hlt heq
    · exact List.Pairwise.cons (fun x hx => by
        rcases List.mem_cons.mp hx with rfl | hx
        · exact hlt
        · exact lt_trans hlt (hrest.1 x hx)) hm
    · subst heq
      exact List.Pairwise.cons hrest.1 hrest.2
    · have hgt : k₀ < k := lt_of_le_of_ne (not_lt.mp hlt) (Ne.symm heq)
      refine List.Pairwise.cons (fun ⟨k', v'⟩ hx => ?_) (ih hrest.2)
      rcases (mem_insertSorted hrest.2).mp hx with ⟨h, -⟩ | ⟨-, hx⟩
      · exact h ▸ hgt
      · exact hrest.1 _ hx

end Insert

section Last

variable {kvs : List (String × String)} {k v k' v' : String}

theorem not_lastValue_nil : ¬ LastValue [] k v := by
  rintro ⟨pre, post, h, -⟩
  simp at h

/-- The last value of a key after one more member: that member's value for its own key, and the
last value before it for any other key. -/
theorem lastValue_append_singleton :
    LastValue (kvs ++ [(k, v)]) k' v' ↔ (k' = k ∧ v' = v) ∨ (k' ≠ k ∧ LastValue kvs k' v') := by
  constructor
  · rintro ⟨pre, post, h, hpost⟩
    rcases List.eq_nil_or_concat post with rfl | ⟨post', x, rfl⟩
    · -- the member found is the new one
      rw [← List.concat_eq_append, ← List.concat_eq_append, List.concat_inj] at h
      obtain ⟨-, he⟩ := h
      cases he
      exact .inl ⟨rfl, rfl⟩
    · -- the member found comes before the new one, which has another key
      rw [List.concat_eq_append] at h hpost
      rw [← List.cons_append, ← List.append_assoc] at h
      obtain ⟨hpre, hx⟩ := List.append_inj' h rfl
      rw [List.singleton_inj] at hx
      subst hx
      refine .inr ⟨fun hk => hpost v (by simp [hk]), pre, post', hpre, fun w hw => ?_⟩
      exact hpost w (List.mem_append_left _ hw)
  · rintro (⟨rfl, rfl⟩ | ⟨hne, pre, post, rfl, hpost⟩)
    · exact ⟨kvs, [], rfl, by simp⟩
    · refine ⟨pre, post ++ [(k, v)], by simp, fun w hw => ?_⟩
      rcases List.mem_append.mp hw with hw | hw
      · exact hpost w hw
      · simp only [List.mem_singleton, Prod.mk.injEq] at hw
        exact hne hw.1

end Last

theorem mapOf_insertSorted {pre m : List (String × String)} {k v : String} (h : MapOf pre m) :
    MapOf (pre ++ [(k, v)]) (insertSorted k v m) :=
  ⟨insertSorted_sorted h.1, fun k' v' => by
    rw [mem_insertSorted h.1, lastValue_append_singleton, h.2]⟩

/-- The run: inserting members in order into the map of those before gives the map of all. -/
theorem mapOf_insertAll :
    ∀ {pre m : List (String × String)} (kvs : List (String × String)), MapOf pre m →
      MapOf (pre ++ kvs) (insertAll m kvs)
  | _, _, [], h => by simpa using h
  | pre, m, (k, v) :: kvs, h => by
    have := mapOf_insertAll kvs (mapOf_insertSorted (k := k) (v := v) h)
    simpa using this

theorem mapOf_nil : MapOf [] [] :=
  ⟨List.Pairwise.nil, fun _ _ => by simp [not_lastValue_nil]⟩

theorem mapOf_insertAll_nil (kvs : List (String × String)) : MapOf kvs (insertAll [] kvs) := by
  simpa using mapOf_insertAll kvs mapOf_nil

end TestDispatch.Json
