import TestDispatch.Glob.Match
/-! The byte matcher is glob matching: a position is kept exactly when skips and reads lead to
it (`mem_run`), so the matcher accepts exactly when `ElemsMatch` holds. -/
namespace TestDispatch.Glob

/-- The elements `es` match the bytes: a byte set takes one byte in it (outside it when
negated), a run any number of bytes. -/
inductive ElemsMatch : List Elem → List UInt8 → Prop
  | nil : ElemsMatch [] []
  | byte {negated : Bool} {ranges : List (UInt8 × UInt8)} {es : List Elem} {b : UInt8}
      {bs : List UInt8} : (inRanges b ranges != negated) = true → ElemsMatch es bs →
      ElemsMatch (.byteSet negated ranges :: es) (b :: bs)
  | skip {es : List Elem} {bs : List UInt8} : ElemsMatch es bs → ElemsMatch (.anyRun :: es) bs
  | eat {es : List Elem} {b : UInt8} {bs : List UInt8} :
      ElemsMatch (.anyRun :: es) bs → ElemsMatch (.anyRun :: es) (b :: bs)

section Positions

variable (es : List Elem)

def Skips (i j : Nat) : Prop := i ≤ j ∧ ∀ k, i ≤ k → k < j → es[k]? = some .anyRun

def Takes (b : UInt8) (i j : Nat) : Prop :=
  (∃ negated ranges, es[i]? = some (.byteSet negated ranges) ∧
    (inRanges b ranges != negated) = true ∧ j = i + 1) ∨ (es[i]? = some .anyRun ∧ j = i)

/-- The bytes lead from position `i` to position `j`: runs skipped before each byte and after
the last one. -/
def Leads : List UInt8 → Nat → Nat → Prop
  | [], i, j => Skips es i j
  | b :: bs, i, j => ∃ k k', Skips es i k ∧ Takes es b k k' ∧ Leads bs k' j

end Positions

section Matcher

variable {es : List Elem} (hno : ∀ e ∈ es, e ≠ .dirPrefix)
include hno

theorem mem_skipFrom {fuel i j : Nat} {f : Bool} :
    (j, f) ∈ skipFrom es.toArray fuel i ↔
      f = false ∧ i < j ∧ j ≤ i + fuel ∧ ∀ k, i ≤ k → k < j → es[k]? = some .anyRun := by
  induction fuel generalizing i with
  | zero =>
    simp only [skipFrom, List.not_mem_nil, false_iff]
    omega
  | succ fuel ih =>
    unfold skipFrom
    rw [List.getElem?_toArray]
    rcases he : es[i]? with _ | _ | _ | _
    · simp only [List.not_mem_nil, false_iff]
      rintro ⟨-, hij, -, hrun⟩
      simp [hrun i (Nat.le_refl i) hij] at he
    · simp only [List.not_mem_nil, false_iff]
      rintro ⟨-, hij, -, hrun⟩
      simp [hrun i (Nat.le_refl i) hij] at he
    · -- a run: the position after it, then what skipping goes on to
      rw [List.mem_cons, ih, Prod.mk.injEq]
      constructor
      · rintro (⟨rfl, rfl⟩ | ⟨rfl, hij, hle, hrun⟩)
        · refine ⟨rfl, by omega, by omega, fun k hk hk' => ?_⟩
          rwa [show k = i by omega]
        · refine ⟨rfl, by omega, by omega, fun k hk hk' => ?_⟩
          by_cases hki : k = i
          · rwa [hki]
          · exact hrun k (by omega) hk'
      · rintro ⟨rfl, hij, hle, hrun⟩
        by_cases hj : j = i + 1
        · exact .inl ⟨hj, rfl⟩
        · exact .inr ⟨rfl, by omega, by omega, fun k hk hk' => hrun k (by omega) hk'⟩
    · exact (hno _ (List.mem_of_getElem? he) rfl).elim

theorem mem_skipFrom_length {i j : Nat} {f : Bool} :
    (j, f) ∈ skipFrom es.toArray es.toArray.size i ↔
      f = false ∧ i < j ∧ ∀ k, i ≤ k → k < j → es[k]? = some .anyRun := by
  rw [List.size_toArray, mem_skipFrom hno]
  constructor
  · rintro ⟨hf, hij, -, hrun⟩
    exact ⟨hf, hij, hrun⟩
  · rintro ⟨hf, hij, hrun⟩
    have hlast := hrun (j - 1) (by omega) (by omega)
    have hlt : j - 1 < es.length := by
      rcases Nat.lt_or_ge (j - 1) es.length with h | h
      · exact h
      · simp [List.getElem?_eq_none h] at hlast
    exact ⟨hf, hij, by omega, hrun⟩

theorem mem_close {S : List State} (hS : ∀ s ∈ S, s.2 = false) {j : Nat} {f : Bool} :
    (j, f) ∈ close es.toArray S ↔ f = false ∧ ∃ i, (i, false) ∈ S ∧ Skips es i j := by
  unfold close
  rw [List.mem_eraseDups, List.mem_append, List.mem_flatMap]
  constructor
  · rintro (hj | ⟨⟨i, g⟩, hi, hj⟩)
    · have hf : f = false := hS _ hj
      subst hf
      exact ⟨rfl, j, hj, Nat.le_refl j, fun k hk hk' => absurd hk' (by omega)⟩
    · have hg : g = false := hS _ hi
      subst hg
      obtain ⟨hf, hij, hrun⟩ := (mem_skipFrom_length hno).mp hj
      exact ⟨hf, i, hi, Nat.le_of_lt hij, hrun⟩
  · rintro ⟨rfl, i, hi, hij, hrun⟩
    rcases Nat.eq_or_lt_of_le hij with rfl | hlt
    · exact .inl hi
    · exact .inr ⟨(i, false), hi, (mem_skipFrom_length hno).mpr ⟨rfl, hlt, hrun⟩⟩

theorem mem_advance {b : UInt8} {i j : Nat} {f : Bool} :
    (j, f) ∈ advance es.toArray b (i, false) ↔ f = false ∧ Takes es b i j := by
  unfold advance
  simp only [List.getElem?_toArray]
  rcases he : es[i]? with _ | ⟨negated, ranges⟩ | _ | _
  · simp [Takes, he]
  · have htakes : Takes es b i j ↔ (inRanges b ranges != negated) = true ∧ j = i + 1 := by
      unfold Takes
      rw [he]
      constructor
      · rintro (⟨n, r, h, hb, rfl⟩ | ⟨h, -⟩)
        · cases h
          exact ⟨hb, rfl⟩
        · cases h
      · rintro ⟨hb, rfl⟩
        exact .inl ⟨negated, ranges, rfl, hb, rfl⟩
    rw [htakes]
    show (j, f) ∈ (if (inRanges b ranges != negated) = true then [(i + 1, false)] else []) ↔ _
    by_cases hb : (inRanges b ranges != negated) = true
    · rw [if_pos hb, List.mem_singleton, Prod.mk.injEq]
      exact ⟨fun h => ⟨h.2, hb, h.1⟩, fun h => ⟨h.2.2, h.1⟩⟩
    · rw [if_neg hb]
      simp [hb]
  · have htakes : Takes es b i j ↔ j = i := by
      simp [Takes, he]
    rw [htakes]
    simp [and_comm]
  · exact (hno _ (List.mem_of_getElem? he) rfl).elim

/-- The positions kept after reading bytes from a closed set are those that skips and reads
lead to from the set. -/
theorem mem_run {bs : List UInt8} {S : List State} (hS : ∀ s ∈ S, s.2 = false) {j : Nat}
    {f : Bool} :
    (j, f) ∈ run es.toArray (close es.toArray S) bs ↔
      f = false ∧ ∃ i, (i, false) ∈ S ∧ Leads es bs i j := by
  induction bs generalizing S with
  | nil => exact mem_close hno hS
  | cons b bs ih =>
    have hclosed : ∀ s ∈ close es.toArray S, s.2 = false := fun s hs =>
      ((mem_close hno hS).mp hs).1
    have hread : ∀ s ∈ (close es.toArray S).flatMap (advance es.toArray b), s.2 = false := by
      intro s hs
      obtain ⟨⟨i, g⟩, hi, hs⟩ := List.mem_flatMap.mp hs
      obtain rfl : g = false := hclosed _ hi
      exact ((mem_advance hno).mp hs).1
    simp only [run]
    rw [ih hread]
    constructor
    · rintro ⟨rfl, k', hk', hleads⟩
      obtain ⟨⟨k, g⟩, hk, hadv⟩ := List.mem_flatMap.mp hk'
      obtain ⟨rfl, i, hi, hskip⟩ := (mem_close hno hS).mp hk
      exact ⟨rfl, i, hi, k, k', hskip, ((mem_advance hno).mp hadv).2, hleads⟩
    · rintro ⟨rfl, i, hi, k, k', hskip, htake, hleads⟩
      refine ⟨rfl, k', List.mem_flatMap.mpr ⟨(k, false), ?_, ?_⟩, hleads⟩
      · exact (mem_close hno hS).mpr ⟨rfl, i, hi, hskip⟩
      · exact (mem_advance hno).mpr ⟨rfl, htake⟩

theorem matchesBytes_iff_leads {bs : List UInt8} :
    matchesBytes es bs = true ↔ Leads es bs 0 es.length := by
  unfold matchesBytes
  simp only [List.contains_iff_mem, List.size_toArray]
  rw [mem_run hno (by simp)]
  simp

end Matcher

theorem drop_eq_cons {es es' : List Elem} {i : Nat} {e : Elem} (h : es.drop i = e :: es') :
    es[i]? = some e ∧ es.drop (i + 1) = es' := by
  constructor
  · rw [← List.head?_drop, h]
    rfl
  · rw [← List.drop_drop, h]
    rfl

theorem Skips.refl (es : List Elem) (i : Nat) : Skips es i i :=
  ⟨Nat.le_refl i, fun _ hk hk' => absurd hk' (by omega)⟩

theorem ElemsMatch.of_runs {es : List Elem} {bs : List UInt8} :
    ∀ (d i : Nat), (∀ k, i ≤ k → k < i + d → es[k]? = some .anyRun) →
      ElemsMatch (es.drop (i + d)) bs → ElemsMatch (es.drop i) bs
  | 0, i, _, hm => by simpa using hm
  | d + 1, i, hrun, hm => by
    obtain ⟨hlt, hat⟩ := List.getElem?_eq_some_iff.mp (hrun i (Nat.le_refl i) (by omega))
    rw [List.drop_eq_getElem_cons hlt, hat]
    refine .skip (ElemsMatch.of_runs d (i + 1) (fun k hk hk' => hrun k (by omega) (by omega)) ?_)
    rwa [show i + 1 + d = i + (d + 1) by omega]

theorem ElemsMatch.of_skips {es : List Elem} {bs : List UInt8} {i k : Nat} (h : Skips es i k)
    (hm : ElemsMatch (es.drop k) bs) : ElemsMatch (es.drop i) bs := by
  obtain ⟨hik, hrun⟩ := h
  obtain ⟨d, rfl⟩ := Nat.exists_eq_add_of_le hik
  exact ElemsMatch.of_runs d i hrun hm

theorem ElemsMatch.of_leads {es : List Elem} {bs : List UInt8} {i : Nat}
    (h : Leads es bs i es.length) : ElemsMatch (es.drop i) bs := by
  induction bs generalizing i with
  | nil => exact ElemsMatch.of_skips h (by simpa using ElemsMatch.nil)
  | cons b bs ih =>
    obtain ⟨k, k', hskip, htake, hleads⟩ := h
    refine ElemsMatch.of_skips hskip ?_
    have hm := ih hleads
    rcases htake with ⟨negated, ranges, hk, hb, rfl⟩ | ⟨hk, rfl⟩
    · obtain ⟨hlt, hat⟩ := List.getElem?_eq_some_iff.mp hk
      rw [List.drop_eq_getElem_cons hlt, hat]
      exact .byte hb hm
    · obtain ⟨hlt, hat⟩ := List.getElem?_eq_some_iff.mp hk
      rw [List.drop_eq_getElem_cons hlt, hat] at hm ⊢
      exact .eat hm

theorem Leads.skip {es : List Elem} {i j : Nat} (hi : es[i]? = some .anyRun) :
    ∀ {bs : List UInt8}, Leads es bs (i + 1) j → Leads es bs i j
  | [], ⟨hij, hrun⟩ => ⟨by omega, fun k hk hk' => by
      rcases Nat.eq_or_lt_of_le hk with rfl | hk
      · exact hi
      · exact hrun k hk hk'⟩
  | _ :: _, ⟨k, k', ⟨hik, hrun⟩, htake, hleads⟩ => ⟨k, k', ⟨by omega, fun m hm hm' => by
      rcases Nat.eq_or_lt_of_le hm with rfl | hm
      · exact hi
      · exact hrun m hm hm'⟩, htake, hleads⟩

theorem ElemsMatch.leads {es : List Elem} {bs : List UInt8} {i : Nat} (hi : i ≤ es.length)
    (h : ElemsMatch (es.drop i) bs) : Leads es bs i es.length := by
  generalize hl : es.drop i = l at h
  induction h generalizing i with
  | nil =>
    have : es.length ≤ i := by simpa using hl
    exact show Skips es i es.length from by rw [show i = es.length by omega]; exact Skips.refl _ _
  | byte hb _ ih =>
    obtain ⟨hat, hrest⟩ := drop_eq_cons hl
    have hlt : i < es.length := (List.getElem?_eq_some_iff.mp hat).1
    exact ⟨i, i + 1, Skips.refl es i, .inl ⟨_, _, hat, hb, rfl⟩, ih (by omega) hrest⟩
  | skip _ ih =>
    obtain ⟨hat, hrest⟩ := drop_eq_cons hl
    have hlt : i < es.length := (List.getElem?_eq_some_iff.mp hat).1
    exact Leads.skip hat (ih (by omega) hrest)
  | eat _ ih =>
    obtain ⟨hat, -⟩ := drop_eq_cons hl
    exact ⟨i, i, Skips.refl es i, .inr ⟨hat, rfl⟩, ih hi hl⟩

/-- The matcher accepts the bytes exactly when the elements match them. -/
theorem matchesBytes_iff {es : List Elem} (hno : ∀ e ∈ es, e ≠ .dirPrefix) (bs : List UInt8) :
    matchesBytes es bs = true ↔ ElemsMatch es bs := by
  rw [matchesBytes_iff_leads hno]
  exact ⟨fun h => by simpa using ElemsMatch.of_leads h,
    fun h => ElemsMatch.leads (Nat.zero_le _) (by simpa using h)⟩

end TestDispatch.Glob
