import TestDispatch.Json.Value
import TestDispatch.Proofs.Json.ReadString
/-! What the writer writes, the reader reads back: quoted strings are literals of the grammar, and
numbers read back while they fit in 64 bits. -/
namespace TestDispatch.Json

open Text.Utf8

section Quote

theorem hexDigitValue_digitChar : ∀ d : Fin 16, hexDigitValue (Nat.digitChar d) = some d := by
  decide

theorem hexDigitValue_hexDigit (n : Nat) : hexDigitValue (hexDigit n) = some (n % 16) := by
  have hd : n % 16 < 16 := Nat.mod_lt n (by decide)
  rw [hexDigit, Nat.toDigits_of_lt_base hd]
  exact hexDigitValue_digitChar ⟨n % 16, hd⟩

/-- Every character is written as a character of a literal that stands for it. -/
theorem litChar_escapeChar (c : Char) : LitChar (escapeChar c).toList c := by
  unfold escapeChar
  split_ifs with h₁ h₂ h₃ h₄ h₅ h₈ h₁₂ hlow
  · subst h₁; exact .short rfl
  · subst h₂; exact .short rfl
  · subst h₃; exact .short rfl
  · subst h₄; exact .short rfl
  · subst h₅; exact .short rfl
  · rw [show c = '\x08' from Char.toNat_inj.mp h₈]; exact .short rfl
  · rw [show c = '\x0C' from Char.toNat_inj.mp h₁₂]; exact .short rfl
  · -- a control character, as a `\u` escape of four hex digits
    have hu : ("\\u00".toList : List Char) = ['\\', 'u', '0', '0'] := by simp
    simp only [String.toList_append, String.toList_singleton, hu, List.cons_append,
      List.nil_append]
    refine .unicode ?_
    simp only [hex4Value, hexDigitValue_hexDigit]
    have h0 : hexDigitValue '0' = some 0 := by decide
    simp only [h0, Option.bind_eq_bind, Option.pure_def, Option.bind_some]
    congr 1
    omega
  · -- a character written as itself
    rw [String.toList_singleton]
    exact .plain (by omega) h₁ h₂

theorem litBody_escape (cs : List Char) :
    LitBody (cs.flatMap fun c => (escapeChar c).toList) cs := by
  induction cs with
  | nil => exact .nil
  | cons c cs ih => exact .cons (litChar_escapeChar c) ih

theorem quote_toList (s : String) :
    (quote s).toList = '"' :: ((s.toList.flatMap fun c => (escapeChar c).toList) ++ ['"']) := by
  simp [quote, List.flatMap_map]

theorem stringLit_quote (s : String) : StringLit (quote s).toList s :=
  ⟨_, quote_toList s, litBody_escape s.toList⟩

end Quote

section Number

variable {src : ByteArray} {i : Nat}

/-- The value of decimal digits read after the value `acc` of those before. -/
def digitsValue (acc : Nat) (ds : List Char) : Nat :=
  ds.foldl (fun a c => a * 10 + (c.toNat - 48)) acc

@[simp] theorem digitsValue_nil (acc : Nat) : digitsValue acc [] = acc := by
  simp only [digitsValue, List.foldl_nil]

@[simp] theorem digitsValue_cons (acc : Nat) (c : Char) (ds : List Char) :
    digitsValue acc (c :: ds) = digitsValue (acc * 10 + (c.toNat - 48)) ds := by
  simp only [digitsValue, List.foldl_cons]

theorem digitsValue_append (acc : Nat) (ds es : List Char) :
    digitsValue acc (ds ++ es) = digitsValue (digitsValue acc ds) es := by
  simp only [digitsValue, List.foldl_append]

theorem le_digitsValue (acc : Nat) (ds : List Char) : acc ≤ digitsValue acc ds := by
  induction ds generalizing acc with
  | nil => exact le_refl acc
  | cons c ds ih =>
    have := ih (acc * 10 + (c.toNat - 48))
    rw [digitsValue_cons]
    omega

theorem digitsValue_toDigits (n : Nat) : digitsValue 0 (Nat.toDigits 10 n) = n := by
  induction n using Nat.strongRecOn with
  | ind n ih =>
    rw [Nat.toDigits_eq_if (by decide)]
    split
    · rename_i hn
      rw [digitsValue_cons, digitsValue_nil, Nat.toNat_digitChar_sub_48_of_lt_ten hn]
      omega
    · rename_i hn
      rw [digitsValue_append, ih (n / 10) (by omega), digitsValue_cons, digitsValue_nil,
        Nat.toNat_digitChar_sub_48_of_lt_ten (Nat.mod_lt n (by decide))]
      omega

theorem toNat_of_isDigit {c : Char} (h : c.isDigit = true) : 48 ≤ c.toNat ∧ c.toNat ≤ 57 := by
  simp only [Char.isDigit, Bool.and_eq_true, decide_eq_true_eq] at h
  obtain ⟨h1, h2⟩ := h
  rw [ge_iff_le, UInt32.le_iff_toNat_le] at h1
  rw [UInt32.le_iff_toNat_le] at h2
  exact ⟨h1, h2⟩

theorem isDigit_byte {c : Char} (h : 48 ≤ c.toNat ∧ c.toNat ≤ 57) :
    isDigit (UInt8.ofNat c.toNat) = true ∧ digitOf (UInt8.ofNat c.toNat) = c.toNat - 48 := by
  have hb := toNat_ofNat_byte (n := c.toNat) (by omega)
  refine ⟨?_, ?_⟩
  · simp only [isDigit, UInt8.le_iff_toNat_le, hb, UInt8.reduceToNat, decide_eq_true_eq]
    omega
  · rw [digitOf, hb]

theorem integerDigits_digits {positive : Bool} :
    ∀ (ds : List Char) {sig i : Nat} {r : List Char}, (∀ c ∈ ds, c.isDigit = true) →
      digitsValue sig ds ≤ u64Max → bytesFrom src i = encode (ds ++ r) →
      integerDigits positive src sig i =
        integerDigits positive src (digitsValue sig ds) (i + ds.length)
  | [], _, _, _, _, _, _ => rfl
  | c :: ds, sig, i, r, hds, hmax, h => by
    have hc := toNat_of_isDigit (hds c (List.mem_cons_self ..))
    rw [List.cons_append, encode_ascii (by omega)] at h
    obtain ⟨hdig, hval⟩ := isDigit_byte hc
    have hle := le_digitsValue (sig * 10 + (c.toNat - 48)) ds
    rw [digitsValue_cons] at hmax
    rw [integerDigits, dif_pos (lt_size_of_bytesFrom h), getElem_of_bytesFrom h, if_pos hdig]
    dsimp only
    rw [hval, if_neg (by omega), integerDigits_digits ds (fun c hc => hds c (List.mem_cons_of_mem _ hc))
      hmax (bytesFrom_succ h), digitsValue_cons, List.length_cons, Nat.add_comm ds.length 1,
      Nat.add_assoc]

/-- A character after which no number goes on: a separator, a closing bracket or white space. -/
def endsNumber (c : Char) : Bool := c = ',' || c = '}' || c = ']' || isBlank c

theorem endsNumber_byte {c : Char} (hc : endsNumber c = true) :
    c.toNat < 0x80 ∧ isDigit (UInt8.ofNat c.toNat) = false ∧ UInt8.ofNat c.toNat ≠ 0x2E ∧
      UInt8.ofNat c.toNat ≠ 0x65 ∧ UInt8.ofNat c.toNat ≠ 0x45 := by
  simp only [endsNumber, isBlank, Bool.or_eq_true, decide_eq_true_eq] at hc
  rcases hc with (((rfl | rfl) | rfl) | ((rfl | rfl) | rfl) | rfl) <;> decide

theorem numberTail_end {positive : Bool} {sig : Nat} {c : Char} {r : List Char}
    (hc : endsNumber c = true) (h : bytesFrom src i = encode (c :: r)) :
    integerDigits positive src sig i = numberTail positive sig src i ∧
      (positive = true → numberTail positive sig src i = .ok (.unsigned sig, i)) := by
  obtain ⟨hlt, hdig, hdot, he, hE⟩ := endsNumber_byte hc
  rw [encode_ascii hlt] at h
  refine ⟨?_, fun hp => ?_⟩
  · rw [integerDigits, dif_pos (lt_size_of_bytesFrom h), getElem_of_bytesFrom h, if_neg (by simp [hdig])]
  · subst hp
    simp only [numberTail, isExponentMark, getElem?_of_bytesFrom h, Option.some.injEq, hdot, he, hE,
      or_self, if_false, decide_false, Bool.false_eq_true, if_true]

theorem toDigits_head_ne_zero {n : Nat} (hn : 0 < n) :
    ∃ d ds, Nat.toDigits 10 n = d :: ds ∧ d ≠ '0' := by
  induction n using Nat.strongRecOn with
  | ind n ih =>
    rw [Nat.toDigits_eq_if (by decide)]
    split
    · exact ⟨_, [], rfl, fun h => by rw [Nat.digitChar_eq_zero] at h; omega⟩
    · rename_i hlt
      obtain ⟨d, ds, hds, hd⟩ := ih (n / 10) (by omega) (by omega)
      exact ⟨d, ds ++ _, by rw [hds, List.cons_append], hd⟩

/-- A number written in decimal is read back as itself while it fits in 64 bits. -/
theorem number_toString {n : Nat} {c : Char} {r : List Char} (hn : n ≤ u64Max)
    (hc : endsNumber c = true) (h : bytesFrom src i = encode ((toString n).toList ++ c :: r)) :
    number true src i = .ok (.unsigned n, i + (toString n).length) := by
  have hdigits : (toString n).toList = Nat.toDigits 10 n := by simp [toString, Nat.repr]
  have hlen : (toString n).length = (Nat.toDigits 10 n).length := by
    rw [← String.length_toList, hdigits]
  rw [hdigits] at h
  rw [hlen]
  rcases Nat.eq_zero_or_pos n with rfl | hpos
  · -- zero is the one digit `0`, and no digit may follow it
    rw [Nat.toDigits_zero, List.singleton_append, encode_ascii (by decide)] at h
    have hnext : bytesFrom src (i + 1) = encode (c :: r) := bytesFrom_succ h
    obtain ⟨hlt, hdig, -⟩ := endsNumber_byte hc
    have hok : numberTail true 0 src (i + 1) = .ok (.unsigned 0, i + 1) :=
      (numberTail_end hc hnext).2 rfl
    rw [encode_ascii hlt] at hnext
    simp only [number, getElem?_of_bytesFrom h, getElem?_of_bytesFrom hnext, hdig]
    simpa using hok
  · -- the first digit is not zero; the others are taken while the value grows to `n`
    obtain ⟨d, ds, hds, hd0⟩ := toDigits_head_ne_zero hpos
    have hall : ∀ c ∈ Nat.toDigits 10 n, c.isDigit = true :=
      fun c hc => Nat.isDigit_of_mem_toDigits (by decide) (by decide) hc
    rw [hds] at h hall ⊢
    have hd := toNat_of_isDigit (hall d (List.mem_cons_self ..))
    rw [List.cons_append, encode_ascii (by omega)] at h
    obtain ⟨hdig, hval⟩ := isDigit_byte hd
    have hvalue : digitsValue (d.toNat - 48) ds = n := by
      have := digitsValue_toDigits n
      rw [hds, digitsValue_cons] at this
      simpa using this
    have hne : UInt8.ofNat d.toNat ≠ 0x30 := fun e => hd0 (Char.toNat_inj.mp (by
      have := toNat_ofNat_byte (n := d.toNat) (by omega)
      rw [e] at this
      exact this.symm))
    have hrun : integerDigits true src (d.toNat - 48) (i + 1) =
        integerDigits true src n (i + 1 + ds.length) := by
      rw [← hvalue]
      exact integerDigits_digits ds (fun c hc => hall c (List.mem_cons_of_mem _ hc))
        (hvalue ▸ hn) (bytesFrom_succ h)
    have hend : bytesFrom src (i + 1 + ds.length) = encode (c :: r) := by
      have hascii : ∀ x ∈ ds, x.toNat < 0x80 := fun x hx => by
        have := toNat_of_isDigit (hall x (List.mem_cons_of_mem _ hx))
        omega
      have := bytesFrom_add (encode ds) (r := encode (c :: r))
        (by rw [bytesFrom_succ h, encode_append])
      rwa [length_encode_ascii hascii] at this
    obtain ⟨htail, hok⟩ := @numberTail_end src _ true n _ _ hc hend
    simp only [number, getElem?_of_bytesFrom h, if_neg hne, if_pos hdig, hval, hrun, htail,
      hok rfl, List.length_cons]
    congr 2
    omega

end Number

end TestDispatch.Json
