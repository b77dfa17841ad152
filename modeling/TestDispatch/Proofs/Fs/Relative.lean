import TestDispatch.Proofs.Fs.Resolve
/-! Paths below a root: proper names joined one by one add one component each, and their text
is the names joined by `/`. -/
namespace TestDispatch

namespace Path

/-- A name a directory can hold: not empty, without `/`, and neither `.` nor `..`. -/
def ProperName (s : String) : Prop := s ≠ "" ∧ '/' ∉ s.toList ∧ s ≠ "." ∧ s ≠ ".."

instance : DecidablePred ProperName := fun s =>
  inferInstanceAs (Decidable (s ≠ "" ∧ '/' ∉ s.toList ∧ s ≠ "." ∧ s ≠ ".."))

theorem joinAll_append (dir : Path) (ns ms : List String) :
    dir.joinAll (ns ++ ms) = (dir.joinAll ns).joinAll ms := by
  simp [joinAll, List.foldl_append]

theorem ProperName.head?_ne_slash {s : String} (hs : ProperName s) : s.toList.head? ≠ some '/' :=
  fun h => hs.2.1 (List.mem_of_mem_head? h)

theorem body_join {dir : Path} {s : String} (hdir : dir.text ≠ "") (hslash : '/' ∉ s.toList)
    (hne : s ≠ "") :
    (dir.join s).parts.filterMap bodyComponent =
      dir.parts.filterMap bodyComponent ++ (bodyComponent s).toList := by
  rw [filterMap_bodyComponent, comps_join hdir hslash hne, List.filterMap_append,
    ← filterMap_bodyComponent]
  cases h : bodyComponent s <;> simp [h]

theorem curDir_join {dir : Path} {s : String} (hdir : dir.text ≠ "") (hslash : '/' ∉ s.toList)
    (hne : s ≠ "") :
    ((dir.join s).text = "." ∨ (dir.join s).text.startsWith "./" = true) ↔
      (dir.text = "." ∨ dir.text.startsWith "./" = true) := by
  obtain ⟨c, cs, hc⟩ : ∃ c cs, s.toList = c :: cs := by
    cases h : s.toList with
    | nil => exact absurd (String.toList_eq_nil_iff.mp h) hne
    | cons c cs => exact ⟨c, cs, rfl⟩
  have hcs : c ≠ '/' := fun h => hslash (by simp [hc, h])
  rw [join_text hslash]
  simp only [hdir, false_or, String.ext_iff, String.startsWith_string_iff]
  rcases hd : dir.text.toList with _ | ⟨a, _ | ⟨b, rest⟩⟩
  · exact absurd (String.toList_eq_nil_iff.mp hd) hdir
  · split <;> rename_i hend <;> simp_all [← String.endsWith_toSlice]
    · have ha : a = '/' := by simpa [eq_comm] using hend.eq_of_length (by simp)
      simp [ha]
    · exact eq_comm
  · split <;> simp_all

/-- Joining a plain name (not empty, no `/`) adds the component that the name reads as in the
body of a path: none for `.`, `..` for `..`, and a normal component otherwise. -/
theorem components_join_plain {dir : Path} {s : String} (hdir : dir.text ≠ "")
    (hslash : '/' ∉ s.toList) (hne : s ≠ "") :
    (dir.join s).components = dir.components ++ (bodyComponent s).toList := by
  have habs : (dir.join s).isAbsolute = dir.isAbsolute := startsWith_join hdir hslash
  have hcur := curDir_join hdir hslash hne
  unfold components
  simp only [body_join hdir hslash hne, habs]
  by_cases ha : dir.isAbsolute = true
  · rw [if_pos ha, if_pos ha]
    rfl
  · rw [if_neg ha, if_neg ha]
    by_cases hc : dir.text = "." ∨ dir.text.startsWith "./" = true
    · rw [if_pos (hcur.mpr hc), if_pos hc]
      rfl
    · rw [if_neg (mt hcur.mp hc), if_neg hc]

theorem components_join {dir : Path} {s : String} (hdir : dir.text ≠ "") (hs : ProperName s) :
    (dir.join s).components = dir.components ++ [.normal s] := by
  rw [components_join_plain hdir hs.2.1 hs.1]
  simp [bodyComponent, hs.1, hs.2.2.1, hs.2.2.2]

theorem text_join_ne {dir : Path} {s : String} (hslash : '/' ∉ s.toList) (hne : s ≠ "") :
    (dir.join s).text ≠ "" := by
  intro h
  have hlt : dir.text.length < (dir.join s).text.length := length_join hslash hne
  rw [h] at hlt
  simp at hlt

theorem components_joinAll {dir : Path} {ns : List String} (hdir : dir.text ≠ "")
    (hns : ∀ n ∈ ns, ProperName n) :
    (dir.joinAll ns).components = dir.components ++ ns.map .normal := by
  induction ns generalizing dir with
  | nil => simp
  | cons n ns ih =>
    have hn := hns n List.mem_cons_self
    rw [joinAll_cons, ih (text_join_ne hn.2.1 hn.1) fun m hm => hns m (List.mem_cons_of_mem n hm),
      components_join hdir hn]
    simp

theorem stripPrefix?_go_append : ∀ (cs rest : List Component),
    stripPrefix?.go (cs ++ rest) cs = some rest
  | [], rest => by simp [stripPrefix?.go]
  | c :: cs, rest => by simp [stripPrefix?.go, stripPrefix?_go_append cs rest]

theorem stripPrefix?_joinAll {dir : Path} {ns : List String} (hdir : dir.text ≠ "")
    (hns : ∀ n ∈ ns, ProperName n) :
    (dir.joinAll ns).stripPrefix? dir = some (ofComponents (ns.map .normal)) := by
  simp [stripPrefix?, components_joinAll hdir hns, stripPrefix?_go_append]

theorem ofComponents_normal (ns : List String) :
    ofComponents (ns.map .normal) = (Path.mk "").joinAll ns := by
  simp only [ofComponents, joinAll, List.foldl_map, Component.text]
  rfl

theorem intercalate_startsWith_slash {ns : List String} (hns : ∀ n ∈ ns, ProperName n) :
    ("/".intercalate ns).startsWith "/" = false := by
  cases ns with
  | nil => rfl
  | cons n ns =>
    have hn := hns n List.mem_cons_self
    cases ns with
    | nil => simpa using not_startsWith_slash hn.2.1
    | cons m ns =>
      rw [String.intercalate_cons_cons, String.append_assoc, startsWith_slash_append hn.1]
      exact not_startsWith_slash hn.2.1

theorem join_text_of_relative {dir : Path} {t : String} (ht : t.startsWith "/" = false) :
    (dir.join t).text = if dir.text = "" ∨ dir.text.endsWith "/" = true then dir.text ++ t
      else dir.text ++ "/" ++ t := by
  simp only [join, push, isAbsolute, ht, Bool.false_eq_true, if_false]
  split <;> rfl

theorem join_join {dir : Path} {n t : String} (hn : ProperName n)
    (ht : t.startsWith "/" = false) : (dir.join n).join t = dir.join (n ++ "/" ++ t) := by
  have hnt : (n ++ "/" ++ t).startsWith "/" = false := by
    rw [String.append_assoc, startsWith_slash_append hn.1]
    exact not_startsWith_slash hn.2.1
  have hsep : ¬((dir.join n).text = "" ∨ (dir.join n).text.endsWith "/" = true) := by
    simp [text_join_ne hn.2.1 hn.1, endsWith_join hn.2.1 hn.1]
  rw [← mk_text ((dir.join n).join t), ← mk_text (dir.join (n ++ "/" ++ t)),
    join_text_of_relative ht, if_neg hsep, join_text hn.2.1, join_text_of_relative hnt]
  split <;> simp [String.append_assoc]

/-- Names joined one by one are the text of the names joined by `/`, joined at once. -/
theorem joinAll_eq_join_intercalate (dir : Path) {ns : List String} (hne : ns ≠ [])
    (hns : ∀ n ∈ ns, ProperName n) : dir.joinAll ns = dir.join ("/".intercalate ns) := by
  induction ns generalizing dir with
  | nil => contradiction
  | cons n ns ih =>
    have hn := hns n List.mem_cons_self
    cases ns with
    | nil => simp
    | cons m ms =>
      have hrest : ∀ x ∈ m :: ms, ProperName x := fun x hx => hns x (List.mem_cons_of_mem n hx)
      rw [joinAll_cons, ih (dir.join n) (List.cons_ne_nil m ms) hrest,
        join_join hn (intercalate_startsWith_slash hrest), String.intercalate_cons_cons]

theorem ofComponents_normal_text {ns : List String} (hns : ∀ n ∈ ns, ProperName n) :
    (ofComponents (ns.map .normal)).text = "/".intercalate ns := by
  rw [ofComponents_normal]
  cases ns with
  | nil => rfl
  | cons n ns =>
    rw [joinAll_eq_join_intercalate _ (List.cons_ne_nil n ns) hns,
      join_text_of_relative (intercalate_startsWith_slash hns)]
    simp

theorem intercalate_ne_empty {ns : List String} (hne : ns ≠ [])
    (hns : ∀ n ∈ ns, ProperName n) : "/".intercalate ns ≠ "" := by
  obtain ⟨n, rest, rfl⟩ := List.exists_cons_of_ne_nil hne
  have hn := (hns n List.mem_cons_self).1
  cases rest with
  | nil => simpa using hn
  | cons m rest =>
    rw [String.intercalate_cons_cons, String.append_assoc]
    exact fun h => hn (String.append_eq_empty_iff.mp h).1

theorem intercalate_endsWith_slash {ns : List String} (hne : ns ≠ [])
    (hns : ∀ n ∈ ns, ProperName n) : ("/".intercalate ns).endsWith "/" = false := by
  have hlast := hns _ (List.getLast_mem hne)
  rw [← List.dropLast_append_getLast hne]
  by_cases hinit : ns.dropLast = []
  · rw [hinit, List.nil_append, String.intercalate_singleton]
    simpa using not_endsWith_slash hlast.2.1 hlast.1 ""
  · rw [String.intercalate_append_of_ne_nil hinit (List.cons_ne_nil _ []),
      String.intercalate_singleton]
    exact not_endsWith_slash hlast.2.1 hlast.1 _

theorem join_append_slash (dir : Path) {s : String} (hs : s ≠ "")
    (ht : s.startsWith "/" = false) : dir.join (s ++ "/") = ⟨(dir.join s).text ++ "/"⟩ := by
  have hst : (s ++ "/").startsWith "/" = false := by
    rw [startsWith_slash_append hs]
    exact ht
  rw [← mk_text (dir.join (s ++ "/")), join_text_of_relative hst, join_text_of_relative ht]
  split <;> simp [String.append_assoc]

theorem endsWith_normalizeRoot (p : Path) : p.normalizeRoot.text.endsWith "/" = true := by
  unfold normalizeRoot
  dsimp only
  split
  · assumption
  · simp [← String.endsWith_toSlice]

theorem text_normalizeRoot_ne (p : Path) : p.normalizeRoot.text ≠ "" := by
  have hend := endsWith_normalizeRoot p
  intro h
  rw [h] at hend
  exact absurd hend (by decide)

end Path

end TestDispatch
