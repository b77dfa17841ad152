import TestDispatch.Text.Utf8
/-! Decoding reads encodings back: one step decodes a character's encoding, so strict and lossy
decoding of a text's bytes give the text. -/
namespace TestDispatch.Text.Utf8

section Lead

theorem toNat_valid (c : Char) : c.toNat < 0xD800 ∨ (0xDFFF < c.toNat ∧ c.toNat < 0x110000) := by
  have h := c.valid
  simpa [UInt32.isValidChar, Nat.isValidChar] using h

theorem toNat_ofNat_of_valid {n : Nat} (h : n < 0xD800 ∨ 0xDFFF < n ∧ n < 0x110000) :
    (Char.ofNat n).toNat = n := by
  unfold Char.ofNat
  rw [dif_pos (by simp only [Nat.isValidChar]; omega)]
  rfl

theorem lead_ascii {b : UInt8} (h : b.toNat < 0x80) : lead b = .ascii := by
  simp only [lead, UInt8.lt_iff_toNat_lt, UInt8.reduceToNat]
  rw [if_pos h]

theorem lead_two {b : UInt8} (h1 : 0xC2 ≤ b.toNat) (h2 : b.toNat ≤ 0xDF) :
    lead b = .seq 0x80 0xBF 2 := by
  simp only [lead, UInt8.lt_iff_toNat_lt, UInt8.le_iff_toNat_le, UInt8.reduceToNat]
  rw [if_neg (by omega), if_neg (by omega), if_pos (by omega)]

theorem lead_three {b : UInt8} (h1 : 0xE0 ≤ b.toNat) (h2 : b.toNat ≤ 0xEF) :
    ∃ lo hi : UInt8, lead b = .seq lo hi 3 ∧
      (b.toNat = 0xE0 ∧ lo.toNat = 0xA0 ∨ b.toNat ≠ 0xE0 ∧ lo.toNat = 0x80) ∧
      (b.toNat = 0xED ∧ hi.toNat = 0x9F ∨ b.toNat ≠ 0xED ∧ hi.toNat = 0xBF) := by
  simp only [lead, UInt8.lt_iff_toNat_lt, UInt8.le_iff_toNat_le, ← UInt8.toNat_inj,
    UInt8.reduceToNat]
  rw [if_neg (by omega), if_neg (by omega), if_neg (by omega)]
  by_cases he0 : b.toNat = 0xE0
  · rw [if_pos he0]
    exact ⟨_, _, rfl, by simp [he0], by simp [he0]⟩
  · rw [if_neg he0]
    by_cases hed : b.toNat = 0xED
    · rw [if_pos hed]
      exact ⟨_, _, rfl, by simp [hed], by simp [hed]⟩
    · rw [if_neg hed, if_pos (by omega)]
      exact ⟨_, _, rfl, by simp [he0], by simp [hed]⟩

theorem lead_four {b : UInt8} (h1 : 0xF0 ≤ b.toNat) (h2 : b.toNat ≤ 0xF4) :
    ∃ lo hi : UInt8, lead b = .seq lo hi 4 ∧
      (b.toNat = 0xF0 ∧ lo.toNat = 0x90 ∨ b.toNat ≠ 0xF0 ∧ lo.toNat = 0x80) ∧
      (b.toNat = 0xF4 ∧ hi.toNat = 0x8F ∨ b.toNat ≠ 0xF4 ∧ hi.toNat = 0xBF) := by
  simp only [lead, UInt8.lt_iff_toNat_lt, UInt8.le_iff_toNat_le, ← UInt8.toNat_inj,
    UInt8.reduceToNat]
  rw [if_neg (by omega), if_neg (by omega), if_neg (by omega), if_neg (by omega),
    if_neg (by omega), if_neg (by omega)]
  by_cases hf0 : b.toNat = 0xF0
  · rw [if_pos hf0]
    exact ⟨_, _, rfl, by simp [hf0], by simp [hf0]⟩
  · rw [if_neg hf0]
    by_cases hf4 : b.toNat = 0xF4
    · rw [if_neg (by omega), if_pos hf4]
      exact ⟨_, _, rfl, by simp [hf4], by simp [hf4]⟩
    · rw [if_pos (by omega)]
      exact ⟨_, _, rfl, by simp [hf0], by simp [hf4]⟩

theorem step_seq {b lo hi : UInt8} {len : Nat} {bs r : List UInt8} (hl : lead b = .seq lo hi len)
    (hlen : bs.length = len - 1) (hk : continued lo hi (len - 1) (bs ++ r) = len - 1) :
    step b (bs ++ r) = (some (Char.ofNat (scalar (b :: bs))), len - 1) := by
  rw [step, hl]
  dsimp only
  rw [if_pos hk, hk, ← hlen, List.take_left]

theorem toNat_ofNat_byte {n : Nat} (h : n < 256) : (UInt8.ofNat n).toNat = n := by
  rw [UInt8.toNat_ofNat']
  omega

theorem isCont_byte {n : Nat} (h : n < 64) :
    0x80 ≤ UInt8.ofNat (n + 0x80) ∧ UInt8.ofNat (n + 0x80) ≤ 0xBF := by
  rw [UInt8.le_iff_toNat_le, UInt8.le_iff_toNat_le, toNat_ofNat_byte (by omega)]
  exact ⟨by simp, by simp; omega⟩

theorem continued_of_mem {lo hi b : UInt8} (bs : List UInt8) {r : List UInt8}
    (hb : lo ≤ b ∧ b ≤ hi)
    (hbs : ∀ x ∈ bs, 0x80 ≤ x ∧ x ≤ 0xBF) :
    continued lo hi (bs.length + 1) (b :: bs ++ r) = bs.length + 1 := by
  induction bs generalizing lo hi b with
  | nil => simp [continued, hb]
  | cons x bs ih =>
    rw [List.cons_append, continued, if_pos hb, List.length_cons,
      ih (hbs x (List.mem_cons_self ..)) fun y hy => hbs y (List.mem_cons_of_mem _ hy)]

/-- The encoding of a character decodes, in one step, as that character. -/
theorem step_encode (c : Char) (r : List UInt8) :
    ∃ b bs, String.utf8EncodeChar c = b :: bs ∧ step b (bs ++ r) = (some c, bs.length) := by
  have hv := toNat_valid c
  have hc : ∀ n, n = c.toNat → Char.ofNat n = c := fun n hn => hn ▸ Char.ofNat_toNat c
  unfold String.utf8EncodeChar
  simp only [show c.val.toNat = c.toNat from rfl]
  split
  · -- one byte
    refine ⟨_, _, rfl, ?_⟩
    rw [step, lead_ascii (by rw [toNat_ofNat_byte (by omega)]; omega)]
    simp [toNat_ofNat_byte (by omega : c.toNat < 256), hc]
  split
  · -- two bytes
    refine ⟨_, [_], rfl, ?_⟩
    have h0 := toNat_ofNat_byte (n := c.toNat / 64 % 32 + 0xc0) (by omega)
    have h1 := toNat_ofNat_byte (n := c.toNat % 64 + 0x80) (by omega)
    rw [step_seq (lead_two (by omega) (by omega)) rfl]
    · simp only [scalar, h0, h1, List.length_singleton]
      rw [hc _ (by omega)]
    · simp only [Nat.reduceSub]
      exact continued_of_mem [] (isCont_byte (n := c.toNat % 64) (by omega)) (by simp)
  split
  · -- three bytes
    refine ⟨_, [_, _], rfl, ?_⟩
    have h0 := toNat_ofNat_byte (n := c.toNat / 4096 % 16 + 0xe0) (by omega)
    have h1 := toNat_ofNat_byte (n := c.toNat / 64 % 64 + 0x80) (by omega)
    have h2 := toNat_ofNat_byte (n := c.toNat % 64 + 0x80) (by omega)
    obtain ⟨lo, hi, hl, hlo, hhi⟩ := lead_three (b := UInt8.ofNat (c.toNat / 4096 % 16 + 0xe0))
      (by omega) (by omega)
    rw [step_seq hl rfl]
    · simp only [scalar, h0, h1, h2, List.length_cons, List.length_nil]
      rw [hc _ (by omega)]
    · rw [h0] at hlo hhi
      simp only [Nat.reduceSub]
      refine continued_of_mem [_] ⟨?_, ?_⟩ ?_
      · rw [UInt8.le_iff_toNat_le, h1]
        omega
      · rw [UInt8.le_iff_toNat_le, h1]
        omega
      · intro x hx
        rw [List.mem_singleton] at hx
        subst hx
        exact isCont_byte (n := c.toNat % 64) (by omega)
  · -- four bytes
    refine ⟨_, [_, _, _], rfl, ?_⟩
    have h0 := toNat_ofNat_byte (n := c.toNat / 262144 % 8 + 0xf0) (by omega)
    have h1 := toNat_ofNat_byte (n := c.toNat / 4096 % 64 + 0x80) (by omega)
    have h2 := toNat_ofNat_byte (n := c.toNat / 64 % 64 + 0x80) (by omega)
    have h3 := toNat_ofNat_byte (n := c.toNat % 64 + 0x80) (by omega)
    obtain ⟨lo, hi, hl, hlo, hhi⟩ := lead_four (b := UInt8.ofNat (c.toNat / 262144 % 8 + 0xf0))
      (by omega) (by omega)
    rw [step_seq hl rfl]
    · simp only [scalar, h0, h1, h2, h3, List.length_cons, List.length_nil]
      rw [hc _ (by omega)]
    · rw [h0] at hlo hhi
      simp only [Nat.reduceSub]
      refine continued_of_mem [_, _] ⟨?_, ?_⟩ ?_
      · rw [UInt8.le_iff_toNat_le, h1]
        omega
      · rw [UInt8.le_iff_toNat_le, h1]
        omega
      · intro x hx
        simp only [List.mem_cons, List.mem_nil_iff, or_false] at hx
        rcases hx with rfl | rfl
        · exact isCont_byte (n := c.toNat / 64 % 64) (by omega)
        · exact isCont_byte (n := c.toNat % 64) (by omega)

end Lead

/-- The bytes of characters, one after another. -/
def encode (cs : List Char) : List UInt8 := cs.flatMap String.utf8EncodeChar

@[simp] theorem encode_nil : encode [] = [] := rfl

@[simp] theorem encode_cons (c : Char) (cs : List Char) :
    encode (c :: cs) = String.utf8EncodeChar c ++ encode cs := List.flatMap_cons

@[simp] theorem encode_append (xs ys : List Char) : encode (xs ++ ys) = encode xs ++ encode ys :=
  List.flatMap_append

@[simp] theorem encode_eq_nil {cs : List Char} : encode cs = [] ↔ cs = [] := by
  cases cs with
  | nil => simp
  | cons c cs => simp [String.utf8EncodeChar_ne_nil]

theorem length_le_length_encode (cs : List Char) : cs.length ≤ (encode cs).length := by
  induction cs with
  | nil => simp
  | cons c cs ih =>
    have := List.length_pos_iff.mpr (String.utf8EncodeChar_ne_nil (c := c))
    simp only [encode_cons, List.length_append, List.length_cons]
    omega

theorem bytes_eq_encode (s : String) : bytes s = encode s.toList := rfl

theorem decodeLossy_encode (cs : List Char) (r : List UInt8) :
    decodeLossy (encode cs ++ r) = cs ++ decodeLossy r := by
  induction cs with
  | nil => rfl
  | cons c cs ih =>
    obtain ⟨b, bs, he, hs⟩ := step_encode c (encode cs ++ r)
    simp only [encode_cons, he, List.cons_append, List.append_assoc]
    rw [decodeLossy, hs]
    simp [ih]

theorem decode?_encode (cs : List Char) (r : List UInt8) :
    decode? (encode cs ++ r) = (decode? r).map (cs ++ ·) := by
  induction cs with
  | nil => simp
  | cons c cs ih =>
    obtain ⟨b, bs, he, hs⟩ := step_encode c (encode cs ++ r)
    simp only [encode_cons, he, List.cons_append, List.append_assoc]
    rw [decode?, hs]
    simp [ih, Option.map_map, Function.comp_def]

@[simp] theorem lossy_encode (cs : List Char) : lossy (encode cs) = String.ofList cs := by
  have h := decodeLossy_encode cs []
  rw [List.append_nil, decodeLossy, List.append_nil] at h
  rw [lossy, h]

@[simp] theorem lossy_bytes (s : String) : lossy (bytes s) = s := by
  simp [bytes_eq_encode]

@[simp] theorem text?_encode (cs : List Char) : text? (encode cs) = some (String.ofList cs) := by
  have h := decode?_encode cs []
  simp only [List.append_nil] at h
  simp [text?, h, decode?]

@[simp] theorem text?_bytes (s : String) : text? (bytes s) = some s := by
  simp [bytes_eq_encode]

theorem utf8EncodeChar_ascii {c : Char} (h : c.toNat < 0x80) :
    String.utf8EncodeChar c = [UInt8.ofNat c.toNat] := by
  unfold String.utf8EncodeChar
  rw [if_pos (by simp only [show c.val.toNat = c.toNat from rfl]; omega)]
  rfl

/-- Every byte of a character beyond ASCII is at least 0x80. -/
theorem high_of_utf8EncodeChar {c : Char} (h : 0x80 ≤ c.toNat) :
    ∀ b ∈ String.utf8EncodeChar c, 0x80 ≤ b.toNat := by
  have hv := toNat_valid c
  unfold String.utf8EncodeChar
  simp only [show c.val.toNat = c.toNat from rfl]
  rw [if_neg (by omega)]
  split
  · simp only [List.mem_cons, List.mem_nil_iff, or_false]
    rintro b (rfl | rfl) <;> rw [toNat_ofNat_byte (by omega)] <;> omega
  split
  · simp only [List.mem_cons, List.mem_nil_iff, or_false]
    rintro b (rfl | rfl | rfl) <;> rw [toNat_ofNat_byte (by omega)] <;> omega
  · simp only [List.mem_cons, List.mem_nil_iff, or_false]
    rintro b (rfl | rfl | rfl | rfl) <;> rw [toNat_ofNat_byte (by omega)] <;> omega

theorem encode_ascii {c : Char} (h : c.toNat < 0x80) (cs : List Char) :
    encode (c :: cs) = UInt8.ofNat c.toNat :: encode cs := by
  rw [encode_cons, utf8EncodeChar_ascii h, List.singleton_append]

theorem length_encode_ascii {cs : List Char} (h : ∀ c ∈ cs, c.toNat < 0x80) :
    (encode cs).length = cs.length := by
  induction cs with
  | nil => rfl
  | cons c cs ih =>
    rw [encode_ascii (h c (List.mem_cons_self ..)), List.length_cons, List.length_cons,
      ih fun x hx => h x (List.mem_cons_of_mem _ hx)]

theorem eq_ascii_of_encode_eq_cons {cs : List Char} {b : UInt8} {bs : List UInt8}
    (h : encode cs = b :: bs) (hb : b.toNat < 0x80) :
    ∃ cs', cs = Char.ofNat b.toNat :: cs' ∧ bs = encode cs' := by
  match cs, h with
  | c :: cs', h =>
    have hc : c.toNat < 0x80 := by
      refine Nat.lt_of_not_le fun hc => ?_
      obtain ⟨b', t, ht⟩ := List.exists_cons_of_ne_nil (String.utf8EncodeChar_ne_nil (c := c))
      rw [encode_cons, ht, List.cons_append, List.cons.injEq] at h
      have := high_of_utf8EncodeChar (by omega) _ (ht ▸ List.mem_cons_self ..)
      rw [← h.1] at hb
      omega
    rw [encode_ascii hc, List.cons.injEq] at h
    obtain ⟨rfl, rfl⟩ := h
    refine ⟨cs', ?_, rfl⟩
    rw [toNat_ofNat_byte (by omega), Char.ofNat_toNat]

theorem eq_ascii_of_encode_eq_append {cs : List Char} {bs r : List UInt8}
    (h : encode cs = bs ++ r) (hbs : ∀ b ∈ bs, b.toNat < 0x80) :
    ∃ cs', cs = bs.map (fun b => Char.ofNat b.toNat) ++ cs' ∧ r = encode cs' := by
  induction bs generalizing cs with
  | nil => exact ⟨cs, rfl, h.symm⟩
  | cons b bs ih =>
    obtain ⟨cs₁, rfl, h₁⟩ := eq_ascii_of_encode_eq_cons h (hbs b (List.mem_cons_self ..))
    obtain ⟨cs', rfl, rfl⟩ := ih h₁.symm fun x hx => hbs x (List.mem_cons_of_mem _ hx)
    exact ⟨cs', rfl, rfl⟩

end TestDispatch.Text.Utf8
