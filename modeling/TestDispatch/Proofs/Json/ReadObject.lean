import TestDispatch.Proofs.Json.ReadString
/-! Reading objects: the reader of a whole document accepts exactly the texts of objects of
strings and returns their maps (`readStringMap_eq_ok_iff`). -/
namespace TestDispatch.Json

open Text.Utf8

/-- What comes before a member's key: white space, and a comma unless the member is the first. -/
def KeyLead : Bool → List Char → Prop
  | true, l => Blank l
  | false, l => ∃ w₁ w₂, l = w₁ ++ ',' :: w₂ ∧ Blank w₁ ∧ Blank w₂

section Keys

variable {src : ByteArray} {i : Nat} {cs : List Char}

theorem nextKey_complete {first : Bool} {l r : List Char} (hl : KeyLead first l)
    (h : bytesFrom src i = encode (l ++ '"' :: r)) :
    ∃ k, nextKey src first i = .ok (some k) ∧ bytesFrom src (k + 1) = encode r := by
  cases first with
  | true =>
    have hq := skipSpace_blank hl (by decide) h
    rw [encode_ascii (by decide)] at hq
    refine ⟨skipSpace src i, ?_, bytesFrom_succ hq⟩
    simp only [nextKey, getElem?_of_bytesFrom hq]
    rfl
  | false =>
    obtain ⟨w₁, w₂, rfl, hw₁, hw₂⟩ := hl
    rw [List.append_assoc, List.cons_append] at h
    have hc := skipSpace_blank hw₁ (by decide) h
    rw [encode_ascii (by decide)] at hc
    have hq := skipSpace_blank hw₂ (by decide) (bytesFrom_succ hc)
    rw [encode_ascii (by decide)] at hq
    refine ⟨_, ?_, bytesFrom_succ hq⟩
    simp only [nextKey, getElem?_of_bytesFrom hc, getElem?_of_bytesFrom hq]
    rfl

theorem nextKey_close {first : Bool} {w r : List Char} (hw : Blank w)
    (h : bytesFrom src i = encode (w ++ '}' :: r)) :
    nextKey src first i = .ok none ∧ bytesFrom src (skipSpace src i) = encode ('}' :: r) := by
  have hb := skipSpace_blank hw (by decide) h
  refine ⟨?_, hb⟩
  rw [encode_ascii (by decide)] at hb
  simp only [nextKey, getElem?_of_bytesFrom hb]
  rfl

theorem nextKey_sound {first : Bool} {res : Option Nat} (h : bytesFrom src i = encode cs)
    (hk : nextKey src first i = .ok res) :
    (res = none ∧ ∃ w r, cs = w ++ '}' :: r ∧ Blank w ∧
      bytesFrom src (skipSpace src i) = encode ('}' :: r)) ∨
    ∃ k l r, res = some k ∧ cs = l ++ '"' :: r ∧ KeyLead first l ∧
      bytesFrom src (k + 1) = encode r := by
  obtain ⟨w, r, rfl, hw, hj⟩ := skipSpace_sound h
  unfold nextKey at hk
  dsimp only at hk
  split at hk
  · cases hk
  · -- the closing brace
    rename_i hb
    obtain ⟨r', rfl, -⟩ := ascii_at hj hb (by decide)
    cases hk
    exact .inl ⟨rfl, w, r', rfl, hw, hj⟩
  · rename_i c _ hb
    cases first with
    | true =>
      simp only [if_true] at hk
      split at hk
      · rename_i hq
        subst hq
        cases hk
        obtain ⟨r', rfl, hr'⟩ := ascii_at hj hb (by decide)
        exact .inr ⟨_, w, r', rfl, rfl, hw, hr'⟩
      · cases hk
    | false =>
      simp only [Bool.false_eq_true, if_false] at hk
      split at hk
      · rename_i hcomma
        subst hcomma
        obtain ⟨r', rfl, hr'⟩ := ascii_at hj hb (by decide)
        obtain ⟨w₂, r'', rfl, hw₂, hk'⟩ := skipSpace_sound hr'
        split at hk
        · rename_i hq
          cases hk
          obtain ⟨r₃, rfl, hr₃⟩ := ascii_at hk' hq (by decide)
          exact .inr ⟨_, w ++ ',' :: w₂, r₃, rfl, by simp, ⟨w, w₂, rfl, hw, hw₂⟩, hr₃⟩
        all_goals cases hk
      · cases hk

theorem colon_complete {w r : List Char} (hw : Blank w)
    (h : bytesFrom src i = encode (w ++ ':' :: r)) :
    ∃ j, colon src i = .ok j ∧ bytesFrom src j = encode r := by
  have hb := skipSpace_blank hw (by decide) h
  rw [encode_ascii (by decide)] at hb
  refine ⟨_, ?_, bytesFrom_succ hb⟩
  simp only [colon, getElem?_of_bytesFrom hb]
  rfl

theorem colon_sound {j : Nat} (h : bytesFrom src i = encode cs) (hc : colon src i = .ok j) :
    ∃ w r, cs = w ++ ':' :: r ∧ Blank w ∧ bytesFrom src j = encode r := by
  obtain ⟨w, r, rfl, hw, hk⟩ := skipSpace_sound h
  unfold colon at hc
  dsimp only at hc
  split at hc
  · rename_i hb
    cases hc
    obtain ⟨r', rfl, hr'⟩ := ascii_at hk hb (by decide)
    exact ⟨w, r', rfl, hw, hr'⟩
  all_goals cases hc

end Keys

section Loop

variable {σ : Type} {src : ByteArray} {entry : σ → String → Nat → Step σ} {fuel : Nat}
  {first : Bool} {st : σ} {i : Nat}

theorem visitMap_close (hk : nextKey src first i = .ok none) :
    visitMap src entry (fuel + 1) first st i = .ok (st, skipSpace src i) := by
  simp only [visitMap, hk, Except.ok_bind]
  rfl

theorem visitMap_key {k j l : Nat} {key : String} {st' : σ} (hk : nextKey src first i = .ok (some k))
    (hkey : stringAt src (k + 1) = .ok (key, j)) (he : entry st key j = .ok (st', l)) :
    visitMap src entry (fuel + 1) first st i = visitMap src entry fuel false st' l := by
  simp only [visitMap, hk, hkey, he, Except.ok_bind]

theorem visitMap_key_inv {k : Nat} {res : σ × Nat} (hk : nextKey src first i = .ok (some k))
    (hr : visitMap src entry (fuel + 1) first st i = .ok res) :
    ∃ key j st' l, stringAt src (k + 1) = .ok (key, j) ∧ entry st key j = .ok (st', l) ∧
      visitMap src entry fuel false st' l = .ok res := by
  simp only [visitMap, hk, Except.ok_bind] at hr
  obtain ⟨⟨key, j⟩, hkey, hr⟩ := Except.bind_eq_ok.mp hr
  obtain ⟨⟨st', l⟩, he, hr⟩ := Except.bind_eq_ok.mp hr
  exact ⟨key, j, st', l, hkey, he, hr⟩

end Loop

/-- The map of members read in order into `acc`, each put in its place by key. -/
def insertAll (acc kvs : List (String × String)) : List (String × String) :=
  kvs.foldl (fun acc kv => insertSorted kv.1 kv.2 acc) acc

@[simp] theorem insertAll_nil (acc : List (String × String)) : insertAll acc [] = acc := rfl

@[simp] theorem insertAll_cons (acc : List (String × String)) (kv : String × String)
    (kvs : List (String × String)) :
    insertAll acc (kv :: kvs) = insertAll (insertSorted kv.1 kv.2 acc) kvs := rfl

section Members

variable {src : ByteArray} {i : Nat} {cs : List Char} {acc : List (String × String)}

theorem stringEntry_complete (acc : List (String × String)) (key : String) {j : Nat}
    {w₁ w₂ lit r : List Char} {v : String} (hw₁ : Blank w₁) (hw₂ : Blank w₂) (hlit : StringLit lit v)
    (h : bytesFrom src j = encode (w₁ ++ ':' :: (w₂ ++ lit ++ r))) :
    ∃ l, stringEntry src acc key j = .ok (insertSorted key v acc, l) ∧
      bytesFrom src l = encode r := by
  obtain ⟨k, hc, hk⟩ := colon_complete hw₁ h
  obtain ⟨l, hv, hl⟩ := stringValue_complete hw₂ hlit hk
  refine ⟨l, ?_, hl⟩
  simp only [stringEntry, hc, hv, Except.ok_bind]
  rfl

theorem stringEntry_sound {j l : Nat} {key : String} {acc' : List (String × String)}
    (h : bytesFrom src j = encode cs) (he : stringEntry src acc key j = .ok (acc', l)) :
    ∃ w₁ w₂ lit r v, cs = w₁ ++ ':' :: (w₂ ++ lit ++ r) ∧ Blank w₁ ∧ Blank w₂ ∧
      StringLit lit v ∧ acc' = insertSorted key v acc ∧ bytesFrom src l = encode r := by
  unfold stringEntry at he
  obtain ⟨k, hc, he⟩ := Except.bind_eq_ok.mp he
  obtain ⟨⟨v, l'⟩, hv, he⟩ := Except.bind_eq_ok.mp he
  obtain ⟨rfl, rfl⟩ := Prod.mk.inj (Except.ok.inj he)
  obtain ⟨w₁, r, rfl, hw₁, hk⟩ := colon_sound h hc
  obtain ⟨w₂, lit, rest, rfl, hw₂, hlit, hl⟩ := stringValue_sound hk hv
  exact ⟨w₁, w₂, lit, rest, v, rfl, hw₁, hw₂, hlit, rfl, hl⟩

theorem visitMap_member_complete (acc : List (String × String)) {first : Bool}
    {l m rest : List Char} {kv : String × String} (hl : KeyLead first l) (hm : MemberText m kv) (h : bytesFrom src i = encode (l ++ m ++ rest)) :
    ∃ j, bytesFrom src j = encode rest ∧ ∀ fuel,
      visitMap src (stringEntry src) (fuel + 1) first acc i =
        visitMap src (stringEntry src) fuel false (insertSorted kv.1 kv.2 acc) j := by
  obtain ⟨key, w₁, w₂, v, rfl, ⟨body, rfl, hbody⟩, hw₁, hw₂, hv⟩ := hm
  obtain ⟨k, hk, hkey⟩ := nextKey_complete hl (r := body ++ '"' :: (w₁ ++ ':' :: (w₂ ++ v ++ rest)))
    (by rw [h]; simp)
  obtain ⟨j, hs, hj⟩ := stringAt_complete hbody hkey
  rw [String.ofList_toList] at hs
  obtain ⟨l', he, hl'⟩ := stringEntry_complete acc kv.1 hw₁ hw₂ hv hj
  exact ⟨l', hl', fun fuel => visitMap_key hk hs he⟩

theorem visitMap_member_sound {first : Bool} {fuel k : Nat} {res : List (String × String) × Nat}
    (h : bytesFrom src i = encode cs) (hk : nextKey src first i = .ok (some k))
    (hr : visitMap src (stringEntry src) (fuel + 1) first acc i = .ok res) :
    ∃ l m kv rest j, cs = l ++ m ++ rest ∧ KeyLead first l ∧ MemberText m kv ∧
      bytesFrom src j = encode rest ∧
      visitMap src (stringEntry src) fuel false (insertSorted kv.1 kv.2 acc) j = .ok res := by
  obtain ⟨key, j, acc', l', hkey, he, hr⟩ := visitMap_key_inv hk hr
  rcases nextKey_sound h hk with ⟨hnone, -⟩ | ⟨k', l, r, hsome, rfl, hl, hr'⟩
  · cases hnone
  cases hsome
  obtain ⟨body, rest, rfl, hbody, hj⟩ := stringAt_sound hr' hkey
  obtain ⟨w₁, w₂, lit, r, v, rfl, hw₁, hw₂, hlit, rfl, hl'⟩ := stringEntry_sound hj he
  refine ⟨l, '"' :: (body ++ ['"']) ++ w₁ ++ ':' :: (w₂ ++ lit), (key, v), r, l', by simp, hl,
    ⟨_, w₁, w₂, lit, rfl, ⟨body, rfl, hbody⟩, hw₁, hw₂, hlit⟩, hl', hr⟩

theorem visitMap_more_complete {more : List Char} {kvs : List (String × String)}
    (hm : MoreMembers more kvs) :
    ∀ {i fuel acc w r}, Blank w → bytesFrom src i = encode (more ++ w ++ '}' :: r) →
      kvs.length < fuel →
      ∃ j, visitMap src (stringEntry src) fuel false acc i = .ok (insertAll acc kvs, j) ∧
        bytesFrom src j = encode ('}' :: r) := by
  induction hm with
  | nil =>
    intro i fuel acc w r hw h hfuel
    obtain ⟨f, rfl⟩ : ∃ f, fuel = f + 1 := ⟨fuel - 1, by simp at hfuel; omega⟩
    obtain ⟨hk, hb⟩ := nextKey_close hw (by simpa using h)
    exact ⟨_, visitMap_close hk, hb⟩
  | @cons w₁ w₂ m rest kv kvs hw₁ hw₂ hmem _ ih =>
    intro i fuel acc w r hw h hfuel
    obtain ⟨f, rfl⟩ : ∃ f, fuel = f + 1 := ⟨fuel - 1, by simp at hfuel; omega⟩
    have h' : bytesFrom src i = encode ((w₁ ++ ',' :: w₂) ++ m ++ (rest ++ w ++ '}' :: r)) := by
      rw [h]
      simp
    obtain ⟨j, hj, hstep⟩ := visitMap_member_complete acc
      (show KeyLead false (w₁ ++ ',' :: w₂) from ⟨w₁, w₂, rfl, hw₁, hw₂⟩) hmem h'
    obtain ⟨l, hl, hr⟩ := ih hw hj (by simp at hfuel; omega)
    exact ⟨l, by rw [hstep, hl, insertAll_cons], hr⟩

theorem visitMap_more_sound (fuel : Nat) :
    ∀ {i acc cs res}, bytesFrom src i = encode cs →
      visitMap src (stringEntry src) fuel false acc i = .ok res →
      ∃ more kvs w r, cs = more ++ w ++ '}' :: r ∧ MoreMembers more kvs ∧ Blank w ∧
        res.1 = insertAll acc kvs ∧ bytesFrom src res.2 = encode ('}' :: r) := by
  induction fuel with
  | zero => intro i acc cs res _ hr; cases hr
  | succ f ih =>
    intro i acc cs res h hr
    cases hk : nextKey src false i with
    | error e => simp [visitMap, hk] at hr
    | ok key? =>
      cases key? with
      | none =>
        rw [visitMap_close hk] at hr
        cases hr
        rcases nextKey_sound h hk with ⟨-, w, r, rfl, hw, hb⟩ | ⟨_, _, _, hsome, -⟩
        · exact ⟨[], [], w, r, rfl, .nil, hw, rfl, hb⟩
        · cases hsome
      | some k =>
        obtain ⟨l, m, kv, rest, j, rfl, ⟨w₁, w₂, rfl, hw₁, hw₂⟩, hm, hj, hr⟩ :=
          visitMap_member_sound h hk hr
        obtain ⟨more, kvs, w, r, rfl, hmore, hw, hres, hb⟩ := ih hj hr
        exact ⟨w₁ ++ ',' :: (w₂ ++ m ++ more), kv :: kvs, w, r, by simp,
          .cons hw₁ hw₂ hm hmore, hw, hres, hb⟩

theorem MoreMembers.length_le {more : List Char} {kvs : List (String × String)}
    (hm : MoreMembers more kvs) : kvs.length ≤ more.length := by
  induction hm with
  | nil => simp
  | cons _ _ _ _ ih => simp; omega

theorem MemberText.length_pos {m : List Char} {kv : String × String} (hm : MemberText m kv) :
    0 < m.length := by
  obtain ⟨k, w₁, w₂, v, rfl, -⟩ := hm
  simp only [List.append_assoc, List.length_append, List.length_cons]
  omega

theorem MembersText.length_le {inner : List Char} {kvs : List (String × String)}
    (hin : MembersText inner kvs) : kvs.length ≤ inner.length := by
  rcases hin with ⟨rfl, rfl⟩ | ⟨m, kv, rest, kvs', rfl, rfl, hm, hmore⟩
  · simp
  · have := hm.length_pos
    have := hmore.length_le
    simp
    omega

theorem visitMap_members_complete {fuel : Nat} {w₁ inner w₂ r : List Char}
    {kvs : List (String × String)} (hw₁ : Blank w₁) (hin : MembersText inner kvs)
    (hw₂ : Blank w₂) (h : bytesFrom src i = encode (w₁ ++ inner ++ w₂ ++ '}' :: r))
    (hfuel : kvs.length < fuel) :
    ∃ j, visitMap src (stringEntry src) fuel true acc i = .ok (insertAll acc kvs, j) ∧
      bytesFrom src j = encode ('}' :: r) := by
  obtain ⟨f, rfl⟩ : ∃ f, fuel = f + 1 := ⟨fuel - 1, by omega⟩
  rcases hin with ⟨rfl, rfl⟩ | ⟨m, kv, rest, kvs', rfl, rfl, hm, hmore⟩
  · -- no members: the brace closes after the white space
    have hclose : nextKey src true i = .ok none ∧
        bytesFrom src (skipSpace src i) = encode ('}' :: r) :=
      nextKey_close (List.forall_mem_append.mpr ⟨hw₁, hw₂⟩) (by simpa using h)
    obtain ⟨hk, hb⟩ := hclose
    exact ⟨_, visitMap_close hk, hb⟩
  · have h' : bytesFrom src i = encode (w₁ ++ m ++ (rest ++ w₂ ++ '}' :: r)) := by
      rw [h]
      simp
    obtain ⟨j, hj, hstep⟩ := visitMap_member_complete acc (show KeyLead true w₁ from hw₁) hm h'
    obtain ⟨l, hl, hr⟩ := visitMap_more_complete hmore hw₂ hj (by simp at hfuel; omega)
    exact ⟨l, by rw [hstep, hl, insertAll_cons], hr⟩

theorem visitMap_members_sound {fuel : Nat} {res : List (String × String) × Nat}
    (h : bytesFrom src i = encode cs) (hr : visitMap src (stringEntry src) fuel true acc i = .ok res) :
    ∃ w₁ inner kvs w₂ r, cs = w₁ ++ inner ++ w₂ ++ '}' :: r ∧ Blank w₁ ∧ MembersText inner kvs ∧
      Blank w₂ ∧ res.1 = insertAll acc kvs ∧ bytesFrom src res.2 = encode ('}' :: r) := by
  cases fuel with
  | zero => cases hr
  | succ f =>
    cases hk : nextKey src true i with
    | error e => simp [visitMap, hk] at hr
    | ok key? =>
      cases key? with
      | none =>
        rw [visitMap_close hk] at hr
        cases hr
        rcases nextKey_sound h hk with ⟨-, w, r, rfl, hw, hb⟩ | ⟨_, _, _, hsome, -⟩
        · exact ⟨w, [], [], [], r, by simp, hw, .inl ⟨rfl, rfl⟩, by simp [Blank], rfl, hb⟩
        · cases hsome
      | some k =>
        obtain ⟨l, m, kv, rest, j, rfl, hl, hm, hj, hr⟩ := visitMap_member_sound h hk hr
        obtain ⟨more, kvs, w, r, rfl, hmore, hw, hres, hb⟩ := visitMap_more_sound f hj hr
        exact ⟨l, m ++ more, kv :: kvs, w, r, by simp, hl,
          .inr ⟨m, kv, more, kvs, rfl, rfl, hm, hmore⟩, hw, hres, hb⟩

end Members

section Document

/-- The reader of an object of strings accepts exactly the texts of such objects, and returns
the map of their members. -/
theorem readStringMap_complete {text : String} {kvs : List (String × String)}
    (h : ObjectText text.toList kvs) : readStringMap text = .ok (insertAll [] kvs) := by
  obtain ⟨w₀, w₁, inner, w₂, w₃, htext, hw₀, hw₁, hw₂, hw₃, hin⟩ := h
  have h0 := bytesFrom_zero_toUTF8 text
  rw [htext] at h0
  have hb := skipSpace_blank hw₀ (by decide) h0
  rw [encode_ascii (by decide)] at hb
  have hfuel : kvs.length < text.toUTF8.size + 1 := by
    have hlen := congrArg List.length h0
    have := hin.length_le
    have := length_le_length_encode inner
    simp only [length_bytesFrom, encode_append, encode_cons, List.length_append] at hlen
    omega
  obtain ⟨j, hr, hj⟩ : ∃ j, visitMap text.toUTF8 (stringEntry text.toUTF8)
      (text.toUTF8.size + 1) true [] (skipSpace text.toUTF8 0 + 1) = .ok (insertAll [] kvs, j) ∧
      bytesFrom text.toUTF8 j = encode ('}' :: w₃) :=
    visitMap_members_complete hw₁ hin hw₂ (bytesFrom_succ hb) hfuel
  rw [encode_ascii (by decide)] at hj
  have hend := (size_le_skipSpace_iff (bytesFrom_succ hj)).mpr hw₃
  simp only [readStringMap, getElem?_of_bytesFrom hb, hr, Except.ok_bind]
  rw [if_neg (Nat.not_lt.mpr hend)]
  rfl

theorem readStringMap_sound {text : String} {m : List (String × String)}
    (hr : readStringMap text = .ok m) :
    ∃ kvs, ObjectText text.toList kvs ∧ m = insertAll [] kvs := by
  unfold readStringMap at hr
  dsimp only at hr
  obtain ⟨w₀, r, htext, hw₀, hk⟩ := skipSpace_sound (bytesFrom_zero_toUTF8 text)
  split at hr
  · cases hr
  · -- an opening brace
    rename_i hb
    obtain ⟨r', rfl, hr'⟩ := ascii_at hk hb (by decide)
    obtain ⟨⟨entries, j⟩, hv, hr⟩ := Except.bind_eq_ok.mp hr
    obtain ⟨w₁, inner, kvs, w₂, w₃, rfl, hw₁, hin, hw₂, hent, hj⟩ := visitMap_members_sound hr' hv
    dsimp only at hent hj hr
    split at hr
    · cases hr
    · -- only blanks after the closing brace
      rename_i hlt
      cases hr
      rw [encode_ascii (by decide)] at hj
      have hw₃ := (size_le_skipSpace_iff (bytesFrom_succ hj)).mp (Nat.le_of_not_lt hlt)
      exact ⟨kvs, ⟨w₀, w₁, inner, w₂, w₃, by simp [htext], hw₀, hw₁, hw₂, hw₃, hin⟩, hent⟩
  · cases hr

theorem readStringMap_eq_ok_iff {text : String} {m : List (String × String)} :
    readStringMap text = .ok m ↔ ∃ kvs, ObjectText text.toList kvs ∧ m = insertAll [] kvs :=
  ⟨readStringMap_sound, fun ⟨_, h, hm⟩ => hm ▸ readStringMap_complete h⟩

end Document

end TestDispatch.Json
