import TestDispatch.Proofs.Json.Bytes
import TestDispatch.Proofs.Except
/-! Reading string literals: the body reader reads exactly the bodies of the grammar, escapes and
surrogate pairs included (`stringBody_complete`, `stringBody_sound`). -/
namespace TestDispatch.Json

open Text.Utf8

section Escape

variable {src : ByteArray} {i : Nat} {cs : List Char}

theorem shortEscape_cases {e c : Char} (h : shortEscape e = some c) :
    e = '"' ∧ c = '"' ∨ e = '\\' ∧ c = '\\' ∨ e = '/' ∧ c = '/' ∨ e = 'b' ∧ c = '\x08' ∨
      e = 'f' ∧ c = '\x0C' ∨ e = 'n' ∧ c = '\n' ∨ e = 'r' ∧ c = '\r' ∨ e = 't' ∧ c = '\t' := by
  unfold shortEscape at h
  split at h <;> cases h <;> simp

theorem escape_short {e c : Char} (hec : shortEscape e = some c)
    (h : bytesFrom src i = encode (e :: cs)) :
    escape src i = .ok (String.utf8EncodeChar c, i + 1) := by
  rcases shortEscape_cases hec with ⟨rfl, rfl⟩ | ⟨rfl, rfl⟩ | ⟨rfl, rfl⟩ | ⟨rfl, rfl⟩ |
      ⟨rfl, rfl⟩ | ⟨rfl, rfl⟩ | ⟨rfl, rfl⟩ | ⟨rfl, rfl⟩ <;>
    · rw [encode_ascii (by decide)] at h
      simp only [escape, getElem?_of_bytesFrom h]
      rfl

end Escape

section Hex

variable {src : ByteArray} {i : Nat} {cs : List Char}

theorem hexValue_ascii : ∀ n : Fin 128, hexValue (UInt8.ofNat n) = hexDigitValue (Char.ofNat n) := by
  decide

theorem hexValue_eq_hexDigitValue {b : UInt8} (hb : b.toNat < 0x80) :
    hexValue b = hexDigitValue (Char.ofNat b.toNat) := by
  have := hexValue_ascii ⟨b.toNat, hb⟩
  rwa [UInt8.ofNat_toNat] at this

theorem hexValue_ofChar {c : Char} (hc : c.toNat < 0x80) :
    hexValue (UInt8.ofNat c.toNat) = hexDigitValue c := by
  have := hexValue_ascii ⟨c.toNat, hc⟩
  rwa [Char.ofNat_toNat] at this

theorem hexValue_high {b : UInt8} (h : 0x80 ≤ b.toNat) : hexValue b = none := by
  simp only [hexValue, isDigit, UInt8.le_iff_toNat_le, UInt8.reduceToNat, decide_eq_true_eq]
  rw [if_neg (by omega), if_neg (by omega), if_neg (by omega)]

theorem toNat_lt_of_hexValue {b : UInt8} {v : Nat} (h : hexValue b = some v) : b.toNat < 0x80 :=
  Nat.lt_of_not_le fun hb => by rw [hexValue_high hb] at h; cases h

theorem hexDigitValue_high {c : Char} (h : 0x80 ≤ c.toNat) : hexDigitValue c = none := by
  have hle : ∀ d : Char, d.toNat < 0x80 → ¬ c ≤ d := fun d hd hcd => by
    rw [Char.le_def, UInt32.le_iff_toNat_le] at hcd
    exact absurd hcd (by change ¬ c.toNat ≤ d.toNat; omega)
  unfold hexDigitValue
  rw [if_neg fun h' => hle '9' (by decide) h'.2, if_neg fun h' => hle 'f' (by decide) h'.2,
    if_neg fun h' => hle 'F' (by decide) h'.2]

theorem toNat_lt_of_hexDigitValue {c : Char} {v : Nat} (h : hexDigitValue c = some v) :
    c.toNat < 0x80 :=
  Nat.lt_of_not_le fun hc => by rw [hexDigitValue_high hc] at h; cases h

theorem hexEscape_of_bytesFrom {b₀ b₁ b₂ b₃ : UInt8} {r : List UInt8}
    (h : bytesFrom src i = b₀ :: b₁ :: b₂ :: b₃ :: r) :
    hexEscape src i = hexQuad src i (hexValue b₀) (hexValue b₁) (hexValue b₂) (hexValue b₃) := by
  have h₁ := bytesFrom_succ h
  have h₂ := bytesFrom_succ h₁
  have h₃ := bytesFrom_succ h₂
  have hsize : i + 4 ≤ src.size := by
    have := congrArg List.length h
    rw [length_bytesFrom] at this
    simp at this
    omega
  unfold hexEscape
  rw [if_neg (by omega), getElem!_of_bytesFrom h, getElem!_of_bytesFrom h₁,
    getElem!_of_bytesFrom h₂, getElem!_of_bytesFrom h₃]

theorem hexEscape_complete {ds : List Char} {n : Nat} (hn : hex4Value ds = some n)
    (h : bytesFrom src i = encode (ds ++ cs)) :
    hexEscape src i = .ok (n, i + 4) ∧ bytesFrom src (i + 4) = encode cs := by
  match ds, hn with
  | [a, b, c, d], hn =>
    cases ha : hexDigitValue a <;> cases hb : hexDigitValue b <;>
      cases hc : hexDigitValue c <;> cases hd : hexDigitValue d <;>
      simp only [hex4Value, ha, hb, hc, hd, Option.bind_eq_bind, Option.bind_none,
        Option.bind_some, reduceCtorEq, Option.pure_def, Option.some.injEq] at hn
    subst hn
    have hascii := fun {x : Char} {v : Nat} (hx : hexDigitValue x = some v) =>
      toNat_lt_of_hexDigitValue hx
    simp only [List.cons_append, List.nil_append, encode_ascii (hascii ha),
      encode_ascii (hascii hb), encode_ascii (hascii hc), encode_ascii (hascii hd)] at h
    refine ⟨?_, bytesFrom_add [_, _, _, _] h⟩
    rw [hexEscape_of_bytesFrom h, hexValue_ofChar (hascii ha), hexValue_ofChar (hascii hb),
      hexValue_ofChar (hascii hc), hexValue_ofChar (hascii hd), ha, hb, hc, hd, hexQuad]

theorem hexEscape_sound {n j : Nat} (h : bytesFrom src i = encode cs)
    (he : hexEscape src i = .ok (n, j)) :
    ∃ ds cs', cs = ds ++ cs' ∧ hex4Value ds = some n ∧ j = i + 4 ∧ bytesFrom src j = encode cs' := by
  obtain ⟨b₀, b₁, b₂, b₃, r, hr⟩ : ∃ b₀ b₁ b₂ b₃ r, bytesFrom src i = b₀ :: b₁ :: b₂ :: b₃ :: r := by
    match hb : bytesFrom src i with
    | b₀ :: b₁ :: b₂ :: b₃ :: r => exact ⟨_, _, _, _, _, rfl⟩
    | [] | [_] | [_, _] | [_, _, _] =>
      have hlen := congrArg List.length hb
      rw [length_bytesFrom] at hlen
      simp only [List.length_nil, List.length_cons] at hlen
      unfold hexEscape at he
      rw [if_pos (by omega)] at he
      cases he
  rw [hexEscape_of_bytesFrom hr] at he
  cases ha : hexValue b₀ <;> cases hb : hexValue b₁ <;> cases hc : hexValue b₂ <;>
    cases hd : hexValue b₃ <;> simp only [ha, hb, hc, hd, hexQuad, reduceCtorEq] at he
  obtain ⟨rfl, rfl⟩ := Prod.mk.inj (Except.ok.inj he)
  obtain ⟨cs', rfl, hr'⟩ := eq_ascii_of_encode_eq_append
    (show encode cs = [b₀, b₁, b₂, b₃] ++ r from h ▸ hr) (by
      simp only [List.mem_cons, List.mem_nil_iff, or_false]
      rintro b (rfl | rfl | rfl | rfl)
      · exact toNat_lt_of_hexValue ha
      · exact toNat_lt_of_hexValue hb
      · exact toNat_lt_of_hexValue hc
      · exact toNat_lt_of_hexValue hd)
  refine ⟨_, cs', rfl, ?_, rfl, ?_⟩
  · simp [hex4Value, ← hexValue_eq_hexDigitValue (toNat_lt_of_hexValue ha),
      ← hexValue_eq_hexDigitValue (toNat_lt_of_hexValue hb),
      ← hexValue_eq_hexDigitValue (toNat_lt_of_hexValue hc),
      ← hexValue_eq_hexDigitValue (toNat_lt_of_hexValue hd), ha, hb, hc, hd]
  · rw [← hr']
    exact bytesFrom_add [b₀, b₁, b₂, b₃] hr

theorem hexDigitValue_lt_table : ∀ n : Fin 128, (hexDigitValue (Char.ofNat n)).getD 0 < 16 := by
  decide

theorem hexDigitValue_lt {c : Char} {v : Nat} (h : hexDigitValue c = some v) : v < 16 := by
  have := hexDigitValue_lt_table ⟨c.toNat, toNat_lt_of_hexDigitValue h⟩
  rwa [Char.ofNat_toNat, h, Option.getD_some] at this

theorem hex4Value_lt {ds : List Char} {n : Nat} (h : hex4Value ds = some n) : n < 0x10000 := by
  match ds, h with
  | [a, b, c, d], h =>
    cases ha : hexDigitValue a <;> cases hb : hexDigitValue b <;>
      cases hc : hexDigitValue c <;> cases hd : hexDigitValue d <;>
      simp only [hex4Value, ha, hb, hc, hd, Option.bind_eq_bind, Option.bind_none,
        Option.bind_some, reduceCtorEq, Option.pure_def, Option.some.injEq] at h
    have := hexDigitValue_lt ha
    have := hexDigitValue_lt hb
    have := hexDigitValue_lt hc
    have := hexDigitValue_lt hd
    omega

end Hex

section Unicode

variable {src : ByteArray} {i : Nat} {cs : List Char}

theorem codePointBytes_eq (n : Nat) : codePointBytes n = String.utf8EncodeChar (Char.ofNat n) := by
  simp [codePointBytes, bytes, String.toList_singleton]

theorem unicodeEscape_single {ds : List Char} {c : Char} (hn : hex4Value ds = some c.toNat)
    (h : bytesFrom src i = encode (ds ++ cs)) :
    unicodeEscape src i = .ok (String.utf8EncodeChar c, i + 4) ∧
      bytesFrom src (i + 4) = encode cs := by
  have hv := toNat_valid c
  obtain ⟨hhex, h₄⟩ := hexEscape_complete hn h
  refine ⟨?_, h₄⟩
  unfold unicodeEscape
  rw [hhex]
  simp only [Except.ok_bind]
  rw [if_neg (by omega), if_pos (by omega), codePointBytes_eq, Char.ofNat_toNat]
  rfl

/-- A leading surrogate escape and a trailing one, for a character beyond the basic plane. -/
theorem unicodeEscape_pair {hs ls : List Char} {hi lo : Nat} {c : Char}
    (hhs : hex4Value hs = some hi) (hhi₁ : 0xD800 ≤ hi) (hhi₂ : hi ≤ 0xDBFF)
    (hls : hex4Value ls = some lo) (hlo₁ : 0xDC00 ≤ lo) (hlo₂ : lo ≤ 0xDFFF)
    (hc : c.toNat = 0x10000 + (hi - 0xD800) * 0x400 + (lo - 0xDC00))
    (h : bytesFrom src i = encode (hs ++ '\\' :: 'u' :: (ls ++ cs))) :
    unicodeEscape src i = .ok (String.utf8EncodeChar c, i + 4 + 1 + 1 + 4) ∧
      bytesFrom src (i + 4 + 1 + 1 + 4) = encode cs := by
  obtain ⟨hhex, h₁⟩ := hexEscape_complete hhs h
  rw [encode_ascii (by decide), encode_ascii (by decide)] at h₁
  have h₂ := bytesFrom_succ h₁
  obtain ⟨hhex₂, h₃⟩ := hexEscape_complete hls (bytesFrom_succ h₂)
  refine ⟨?_, h₃⟩
  unfold unicodeEscape
  rw [hhex]
  simp only [Except.ok_bind]
  rw [if_neg (by omega), if_neg (by omega), getElem?_of_bytesFrom h₁]
  dsimp only
  rw [if_neg (by decide), getElem?_of_bytesFrom h₂]
  dsimp only
  rw [if_neg (by decide), hhex₂]
  simp only [Except.ok_bind]
  rw [if_neg (by omega), codePointBytes_eq, show (hi - 0xD800) * 1024 + (lo - 0xDC00) + 0x10000 =
    c.toNat by omega, Char.ofNat_toNat]
  rfl

theorem unicodeEscape_sound {bs : List UInt8} {j : Nat} (h : bytesFrom src i = encode cs)
    (he : unicodeEscape src i = .ok (bs, j)) :
    ∃ w c cs', cs = w ++ cs' ∧ LitChar ('\\' :: 'u' :: w) c ∧ bs = String.utf8EncodeChar c ∧
      bytesFrom src j = encode cs' := by
  unfold unicodeEscape at he
  obtain ⟨⟨n, j₁⟩, hhex, he⟩ := Except.bind_eq_ok.mp he
  obtain ⟨ds, cs₁, rfl, hds, rfl, h₁⟩ := hexEscape_sound h hhex
  have hn := hex4Value_lt hds
  dsimp only at he
  by_cases htrail : 0xDC00 ≤ n ∧ n ≤ 0xDFFF
  · rw [if_pos htrail] at he
    cases he
  rw [if_neg htrail] at he
  by_cases hsingle : n < 0xD800 ∨ n > 0xDBFF
  · -- a character of the basic plane
    rw [if_pos hsingle] at he
    obtain ⟨rfl, rfl⟩ := Prod.mk.inj (Except.ok.inj he)
    have hc : (Char.ofNat n).toNat = n := toNat_ofNat_of_valid (by omega)
    exact ⟨ds, Char.ofNat n, cs₁, rfl, .unicode (by rw [hc]; exact hds), codePointBytes_eq n, h₁⟩
  -- a leading surrogate, which a backslash, a `u` and a trailing surrogate must follow
  rw [if_neg hsingle] at he
  obtain ⟨b, r, hb⟩ : ∃ b r, bytesFrom src (i + 4) = b :: r := by
    cases hr : bytesFrom src (i + 4) with
    | nil =>
      rw [getElem?_of_bytesFrom_nil hr] at he
      cases he
    | cons b r => exact ⟨b, r, rfl⟩
  rw [getElem?_of_bytesFrom hb] at he
  dsimp only at he
  have hb92 : b = 92 := Decidable.byContradiction fun hne => by
    rw [if_pos hne] at he
    cases he
  rw [if_neg (fun hne => hne hb92)] at he
  subst hb92
  obtain ⟨cs₂, rfl, h₂⟩ := ascii_ahead h₁ hb (by decide)
  obtain ⟨b', r', hb'⟩ : ∃ b r, bytesFrom src (i + 4 + 1) = b :: r := by
    cases hr : bytesFrom src (i + 4 + 1) with
    | nil =>
      rw [getElem?_of_bytesFrom_nil hr] at he
      cases he
    | cons b r => exact ⟨b, r, rfl⟩
  rw [getElem?_of_bytesFrom hb'] at he
  dsimp only at he
  have hb117 : b' = 117 := Decidable.byContradiction fun hne => by
    rw [if_pos hne] at he
    cases he
  rw [if_neg (fun hne => hne hb117)] at he
  subst hb117
  obtain ⟨cs₃, rfl, h₃⟩ := ascii_ahead h₂ hb' (by decide)
  obtain ⟨⟨lo, k⟩, hhex₂, he⟩ := Except.bind_eq_ok.mp he
  obtain ⟨ls, cs₄, rfl, hls, rfl, h₄⟩ := hexEscape_sound h₃ hhex₂
  dsimp only at he
  by_cases hlo : lo < 0xDC00 ∨ lo > 0xDFFF
  · rw [if_pos hlo] at he
    cases he
  rw [if_neg hlo] at he
  obtain ⟨rfl, rfl⟩ := Prod.mk.inj (Except.ok.inj he)
  have hc : (Char.ofNat ((n - 0xD800) * 1024 + (lo - 0xDC00) + 0x10000)).toNat =
      (n - 0xD800) * 1024 + (lo - 0xDC00) + 0x10000 := toNat_ofNat_of_valid (by omega)
  refine ⟨ds ++ '\\' :: 'u' :: ls, _, cs₄, by simp, ?_, codePointBytes_eq _, h₄⟩
  exact .pair hds (by omega) (by omega) hls (by omega) (by omega) (by rw [hc]; omega)

end Unicode

section Escape

variable {src : ByteArray} {i : Nat} {cs : List Char}

/-- An escape after its backslash, read by the grammar's rules. -/
theorem escape_complete {w : List Char} {c : Char} (hw : LitChar ('\\' :: w) c)
    (h : bytesFrom src i = encode (w ++ cs)) :
    ∃ j, escape src i = .ok (String.utf8EncodeChar c, j) ∧ bytesFrom src j = encode cs := by
  cases hw with
  | plain _ _ hne => exact absurd rfl hne
  | short hec =>
    have he := escape_short hec h
    rw [List.singleton_append, encode_ascii] at h
    · exact ⟨_, he, bytesFrom_succ h⟩
    · rcases shortEscape_cases hec with ⟨rfl, -⟩ | ⟨rfl, -⟩ | ⟨rfl, -⟩ | ⟨rfl, -⟩ | ⟨rfl, -⟩ |
        ⟨rfl, -⟩ | ⟨rfl, -⟩ | ⟨rfl, -⟩ <;> decide
  | unicode hds =>
    rw [List.cons_append, encode_ascii (by decide)] at h
    obtain ⟨hu, h₄⟩ := unicodeEscape_single hds (bytesFrom_succ h)
    refine ⟨_, ?_, h₄⟩
    unfold escape
    rw [getElem?_of_bytesFrom h]
    simp only
    rw [← hu]
    rfl
  | @pair hs ls _ _ _ hhs hhi₁ hhi₂ hls hlo₁ hlo₂ hc =>
    rw [List.cons_append, encode_ascii (by decide)] at h
    have h₁ : bytesFrom src (i + 1) = encode (hs ++ '\\' :: 'u' :: (ls ++ cs)) := by
      rw [bytesFrom_succ h, List.append_assoc, List.cons_append, List.cons_append]
    obtain ⟨hu, h₁₁⟩ := unicodeEscape_pair hhs hhi₁ hhi₂ hls hlo₁ hlo₂ hc h₁
    refine ⟨_, ?_, h₁₁⟩
    unfold escape
    rw [getElem?_of_bytesFrom h]
    simp only
    rw [← hu]
    rfl

theorem escape_sound {bs : List UInt8} {j : Nat} (h : bytesFrom src i = encode cs)
    (he : escape src i = .ok (bs, j)) :
    ∃ w c cs', cs = w ++ cs' ∧ LitChar ('\\' :: w) c ∧ bs = String.utf8EncodeChar c ∧
      bytesFrom src j = encode cs' := by
  obtain ⟨b, r, hb⟩ : ∃ b r, bytesFrom src i = b :: r := by
    cases hr : bytesFrom src i with
    | nil =>
      unfold escape at he
      rw [getElem?_of_bytesFrom_nil hr] at he
      cases he
    | cons b r => exact ⟨b, r, rfl⟩
  have hshort : ∀ e c : Char, e.toNat < 0x80 → b = UInt8.ofNat e.toNat →
      shortEscape e = some c → bs = String.utf8EncodeChar c → j = i + 1 →
      ∃ w c cs', cs = w ++ cs' ∧ LitChar ('\\' :: w) c ∧ bs = String.utf8EncodeChar c ∧
        bytesFrom src j = encode cs' := by
    intro e c hlt hbe hec hbs hj
    subst hbe hbs hj
    obtain ⟨cs', rfl, h'⟩ := ascii_ahead h hb (by rw [toNat_ofNat_byte (by omega)]; exact hlt)
    rw [toNat_ofNat_byte (by omega), Char.ofNat_toNat] at *
    exact ⟨[e], c, cs', rfl, .short hec, rfl, h'⟩
  unfold escape at he
  rw [getElem?_of_bytesFrom hb] at he
  dsimp only at he
  split at he
  · rename_i hq
    obtain ⟨rfl, rfl⟩ := Prod.mk.inj (Except.ok.inj he)
    rcases hq with rfl | rfl | rfl
    · exact hshort '"' '"' (by decide) rfl rfl rfl rfl
    · exact hshort '\\' '\\' (by decide) rfl rfl rfl rfl
    · exact hshort '/' '/' (by decide) rfl rfl rfl rfl
  split at he
  · obtain ⟨rfl, rfl⟩ := Prod.mk.inj (Except.ok.inj he)
    subst b
    exact hshort 'b' '\x08' (by decide) rfl rfl rfl rfl
  split at he
  · obtain ⟨rfl, rfl⟩ := Prod.mk.inj (Except.ok.inj he)
    subst b
    exact hshort 'f' '\x0C' (by decide) rfl rfl rfl rfl
  split at he
  · obtain ⟨rfl, rfl⟩ := Prod.mk.inj (Except.ok.inj he)
    subst b
    exact hshort 'n' '\n' (by decide) rfl rfl rfl rfl
  split at he
  · obtain ⟨rfl, rfl⟩ := Prod.mk.inj (Except.ok.inj he)
    subst b
    exact hshort 'r' '\r' (by decide) rfl rfl rfl rfl
  split at he
  · obtain ⟨rfl, rfl⟩ := Prod.mk.inj (Except.ok.inj he)
    subst b
    exact hshort 't' '\t' (by decide) rfl rfl rfl rfl
  split at he
  · -- a `u` and a code
    subst b
    obtain ⟨cs', rfl, h'⟩ := ascii_ahead h hb (by decide)
    obtain ⟨w, c, cs'', rfl, hw, rfl, hj⟩ := unicodeEscape_sound h' he
    exact ⟨'u' :: w, c, cs'', rfl, hw, rfl, hj⟩
  · cases he

end Escape

section Body

variable {src : ByteArray} {i : Nat} {cs : List Char}

theorem stringBody_high_byte {x : UInt8} {r : List UInt8} (hx : 0x80 ≤ x.toNat)
    (h : bytesFrom src i = x :: r) (fuel : Nat) (acc : List UInt8) :
    stringBody src (fuel + 1) i acc = stringBody src fuel (i + 1) (x :: acc) := by
  rw [stringBody, getElem?_of_bytesFrom h]
  dsimp only
  rw [if_neg (fun e => by rw [e] at hx; exact absurd hx (by decide)),
    if_neg (fun e => by rw [e] at hx; exact absurd hx (by decide)),
    if_neg (by rw [UInt8.lt_iff_toNat_lt]; simp; omega)]

theorem stringBody_high {hs r : List UInt8} (hhigh : ∀ x ∈ hs, 0x80 ≤ x.toNat)
    (h : bytesFrom src i = hs ++ r) (fuel : Nat) (acc : List UInt8) :
    stringBody src (fuel + hs.length) i acc =
      stringBody src fuel (i + hs.length) (hs.reverse ++ acc) := by
  induction hs generalizing i acc with
  | nil => rfl
  | cons x hs ih =>
    rw [List.length_cons, ← Nat.add_assoc, stringBody_high_byte (hhigh x (List.mem_cons_self ..)) h,
      ih (fun y hy => hhigh y (List.mem_cons_of_mem _ hy)) (bytesFrom_succ h)]
    simp [Nat.add_assoc, Nat.add_comm 1]

theorem stringBody_high_short {hs r : List UInt8} (hhigh : ∀ x ∈ hs, 0x80 ≤ x.toNat)
    (h : bytesFrom src i = hs ++ r) {fuel : Nat} (hf : fuel < hs.length) (acc : List UInt8) :
    ∃ e, stringBody src fuel i acc = .error e := by
  induction hs generalizing fuel i acc with
  | nil => exact absurd hf (Nat.not_lt_zero _)
  | cons x hs ih =>
    cases fuel with
    | zero => exact ⟨_, rfl⟩
    | succ f =>
      rw [stringBody_high_byte (hhigh x (List.mem_cons_self ..)) h]
      exact ih (fun y hy => hhigh y (List.mem_cons_of_mem _ hy)) (bytesFrom_succ h)
        (by simpa using hf) _

theorem LitChar.plain_or_escape {w : List Char} {c : Char} (hw : LitChar w c) :
    (w = [c] ∧ 0x20 ≤ c.toNat ∧ c ≠ '"' ∧ c ≠ '\\') ∨ ∃ w', w = '\\' :: w' := by
  cases hw with
  | plain h₁ h₂ h₃ => exact .inl ⟨rfl, h₁, h₂, h₃⟩
  | short => exact .inr ⟨_, rfl⟩
  | unicode => exact .inr ⟨_, rfl⟩
  | pair => exact .inr ⟨_, rfl⟩

theorem ascii_plain_byte {c : Char} (hc : c.toNat < 0x80) (hlow : 0x20 ≤ c.toNat) (hq : c ≠ '"')
    (hbs : c ≠ '\\') :
    UInt8.ofNat c.toNat ≠ 0x22 ∧ UInt8.ofNat c.toNat ≠ 0x5C ∧ ¬ UInt8.ofNat c.toNat < 0x20 := by
  have hb := toNat_ofNat_byte (n := c.toNat) (by omega)
  refine ⟨fun e => hq (Char.toNat_inj.mp ?_), fun e => hbs (Char.toNat_inj.mp ?_), ?_⟩
  · rw [← hb, e]
    rfl
  · rw [← hb, e]
    rfl
  · rw [UInt8.lt_iff_toNat_lt, hb]
    simpa using hlow

theorem stringBody_litChar {w rest : List Char} {c : Char} (hw : LitChar w c)
    (h : bytesFrom src i = encode (w ++ rest)) :
    ∃ j k, 0 < k ∧ k ≤ (encode w).length ∧ bytesFrom src j = encode rest ∧
      ∀ fuel acc, stringBody src (fuel + k) i acc =
        stringBody src fuel j ((String.utf8EncodeChar c).reverse ++ acc) := by
  rcases hw.plain_or_escape with ⟨rfl, hlow, hq, hbs⟩ | ⟨w', rfl⟩
  · by_cases hc : c.toNat < 0x80
    · -- one byte, copied as it is
      rw [List.singleton_append, encode_ascii hc] at h
      refine ⟨i + 1, 1, Nat.one_pos, by simp [utf8EncodeChar_ascii hc], bytesFrom_succ h,
        fun fuel acc => ?_⟩
      obtain ⟨h₁, h₂, h₃⟩ := ascii_plain_byte hc hlow hq hbs
      rw [stringBody, getElem?_of_bytesFrom h]
      dsimp only
      rw [if_neg h₁, if_neg h₂, if_neg h₃, utf8EncodeChar_ascii hc]
      rfl
    · -- the bytes of a character beyond ASCII, copied one by one
      rw [List.singleton_append, encode_cons] at h
      refine ⟨i + (String.utf8EncodeChar c).length, (String.utf8EncodeChar c).length,
        List.length_pos_iff.mpr String.utf8EncodeChar_ne_nil, by simp, bytesFrom_add _ h,
        stringBody_high (high_of_utf8EncodeChar (by omega)) h⟩
  · -- an escape: one step for the backslash and what follows it
    rw [List.cons_append, encode_ascii (by decide)] at h
    obtain ⟨j, he, hj⟩ := escape_complete hw (bytesFrom_succ h)
    refine ⟨j, 1, Nat.one_pos, by simp [encode_ascii (by decide : '\\'.toNat < 0x80)], hj,
      fun fuel acc => ?_⟩
    rw [stringBody, getElem?_of_bytesFrom h]
    dsimp only
    rw [if_neg (by decide), if_pos (show UInt8.ofNat '\\'.toNat = 0x5C by decide), he]

theorem stringBody_complete {body s : List Char} (hb : LitBody body s) :
    ∀ {i fuel acc cs}, bytesFrom src i = encode (body ++ '"' :: cs) →
      (encode body).length < fuel →
      ∃ j, stringBody src fuel i acc = .ok (acc.reverse ++ encode s, j) ∧
        bytesFrom src j = encode cs := by
  induction hb with
  | nil =>
    intro i fuel acc cs h hfuel
    obtain ⟨f, rfl⟩ : ∃ f, fuel = f + 1 := ⟨fuel - 1, by simp at hfuel; omega⟩
    rw [List.nil_append, encode_ascii (by decide)] at h
    refine ⟨i + 1, ?_, bytesFrom_succ h⟩
    rw [stringBody, getElem?_of_bytesFrom h]
    simp
  | @cons w ws c s hw _ ih =>
    intro i fuel acc cs h hfuel
    rw [List.append_assoc] at h
    obtain ⟨j, k, -, hk, hj, hstep⟩ := stringBody_litChar hw h
    rw [encode_append, List.length_append] at hfuel
    obtain ⟨f, rfl⟩ : ∃ f, fuel = f + k := ⟨fuel - k, by omega⟩
    obtain ⟨l, hl, hrest⟩ := @ih j f ((String.utf8EncodeChar c).reverse ++ acc) cs hj (by omega)
    refine ⟨l, ?_, hrest⟩
    rw [hstep, hl]
    simp

theorem eq_of_ascii_byte {c : Char} (hc : c.toNat < 0x80) {n : UInt8} {d : Char}
    (hd : d.toNat = n.toNat) (h : UInt8.ofNat c.toNat = n) : c = d := by
  have hb := toNat_ofNat_byte (n := c.toNat) (by omega)
  rw [h] at hb
  exact Char.toNat_inj.mp (by omega)

/-- One step of the reader: at the closing quote it stops, and otherwise it reads one character
of a literal, whose bytes it adds, in a number of steps between one and its fuel. -/
theorem stringBody_step_sound {fuel : Nat} {acc out : List UInt8} {j : Nat}
    (h : bytesFrom src i = encode cs) (hr : stringBody src (fuel + 1) i acc = .ok (out, j)) :
    (∃ rest, cs = '"' :: rest ∧ out = acc.reverse ∧ bytesFrom src j = encode rest) ∨
      ∃ w c rest i' k, 0 < k ∧ k ≤ fuel + 1 ∧ cs = w ++ rest ∧ LitChar w c ∧
        bytesFrom src i' = encode rest ∧
        stringBody src (fuel + 1 - k) i' ((String.utf8EncodeChar c).reverse ++ acc) =
          .ok (out, j) := by
  match cs, h with
  | [], h =>
    rw [stringBody, getElem?_of_bytesFrom_nil h] at hr
    cases hr
  | c :: cs, h =>
    by_cases hc : c.toNat < 0x80
    · rw [encode_ascii hc] at h
      rw [stringBody, getElem?_of_bytesFrom h] at hr
      dsimp only at hr
      split at hr
      · -- the closing quote
        rename_i hq
        obtain ⟨rfl, rfl⟩ := Prod.mk.inj (Except.ok.inj hr)
        exact .inl ⟨cs, by rw [eq_of_ascii_byte hc (d := '"') rfl hq], rfl, bytesFrom_succ h⟩
      split at hr
      · -- a backslash and the escape after it
        rename_i hbs
        cases c_eq : eq_of_ascii_byte hc (d := '\\') rfl hbs
        split at hr
        · rename_i bs j' he
          obtain ⟨w, c', cs', rfl, hw, rfl, hj⟩ := escape_sound (bytesFrom_succ h) he
          exact .inr ⟨'\\' :: w, c', cs', j', 1, Nat.one_pos, by omega, rfl, hw, hj, hr⟩
        · cases hr
      split at hr
      · cases hr
      · -- a plain character
        rename_i hq hbs hlow
        have hb := toNat_ofNat_byte (n := c.toNat) (by omega)
        refine .inr ⟨[c], c, cs, i + 1, 1, Nat.one_pos, by omega, rfl,
          .plain ?_ (fun e => hq (by rw [e]; rfl)) (fun e => hbs (by rw [e]; rfl)),
          bytesFrom_succ h, by rw [utf8EncodeChar_ascii hc]; exact hr⟩
        rw [UInt8.lt_iff_toNat_lt, hb] at hlow
        simp at hlow
        omega
    · -- a character beyond ASCII: its bytes are copied while the fuel lasts
      have hhigh := high_of_utf8EncodeChar (c := c) (by omega)
      rw [encode_cons] at h
      by_cases hf : (String.utf8EncodeChar c).length ≤ fuel + 1
      · obtain ⟨f, hfuel⟩ : ∃ f, fuel + 1 = f + (String.utf8EncodeChar c).length :=
          ⟨fuel + 1 - (String.utf8EncodeChar c).length, by omega⟩
        rw [hfuel, stringBody_high hhigh h] at hr
        refine .inr ⟨[c], c, cs, _, _, List.length_pos_iff.mpr String.utf8EncodeChar_ne_nil, hf,
          rfl, ?_, bytesFrom_add _ h, by rw [hfuel, Nat.add_sub_cancel]; exact hr⟩
        exact .plain (by omega) (fun e => by subst e; exact hc (by decide))
          (fun e => by subst e; exact hc (by decide))
      · obtain ⟨e, he⟩ := stringBody_high_short hhigh h (Nat.lt_of_not_le hf) acc
        rw [he] at hr
        cases hr

theorem stringBody_sound (fuel : Nat) :
    ∀ {i acc cs out j}, bytesFrom src i = encode cs → stringBody src fuel i acc = .ok (out, j) →
      ∃ body s rest, cs = body ++ '"' :: rest ∧ LitBody body s ∧
        out = acc.reverse ++ encode s ∧ bytesFrom src j = encode rest := by
  -- on the fuel, which a character of several bytes takes several of
  induction fuel using Nat.strongRecOn with
  | ind fuel ih =>
    intro i acc cs out j h hr
    cases fuel with
    | zero => cases hr
    | succ f =>
      rcases stringBody_step_sound h hr with ⟨rest, rfl, rfl, hj⟩ |
          ⟨w, c, rest, i', k, hk, hkf, rfl, hw, h', hr'⟩
      · exact ⟨[], [], rest, rfl, .nil, by simp, hj⟩
      · obtain ⟨body, s, rest', rfl, hbody, rfl, hj⟩ := ih _ (by omega) h' hr'
        exact ⟨w ++ body, c :: s, rest', by simp, .cons hw hbody, by simp, hj⟩

end Body

section Literal

variable {src : ByteArray} {i : Nat}

theorem stringAt_complete {body s cs : List Char} (hb : LitBody body s)
    (h : bytesFrom src i = encode (body ++ '"' :: cs)) :
    ∃ j, stringAt src i = .ok (String.ofList s, j) ∧ bytesFrom src j = encode cs := by
  -- the document holds the body and the quote ahead of `i`, so its size is fuel enough
  have hfuel : (encode body).length < src.size := by
    have hlen := congrArg List.length h
    rw [length_bytesFrom, encode_append, List.length_append, encode_ascii (by decide),
      List.length_cons] at hlen
    omega
  obtain ⟨j, hj, hrest⟩ := @stringBody_complete src body s hb i src.size [] cs h hfuel
  refine ⟨j, ?_, hrest⟩
  simp [stringAt, hj]

theorem stringAt_sound {cs : List Char} {v : String} {j : Nat} (h : bytesFrom src i = encode cs)
    (hr : stringAt src i = .ok (v, j)) :
    ∃ body rest, cs = body ++ '"' :: rest ∧ LitBody body v.toList ∧
      bytesFrom src j = encode rest := by
  unfold stringAt at hr
  obtain ⟨⟨bs, j'⟩, hb, hr⟩ := Except.bind_eq_ok.mp hr
  obtain ⟨body, s, rest, rfl, hbody, rfl, hj⟩ := stringBody_sound src.size h hb
  simp only [List.reverse_nil, List.nil_append, text?_encode] at hr
  obtain ⟨rfl, rfl⟩ := Prod.mk.inj (Except.ok.inj hr)
  exact ⟨body, rest, rfl, by rwa [String.toList_ofList], hj⟩

/-- A string value after white space is read as the text its literal stands for. -/
theorem stringValue_complete {w lit cs : List Char} {v : String} (hw : Blank w)
    (hlit : StringLit lit v) (h : bytesFrom src i = encode (w ++ lit ++ cs)) :
    ∃ j, stringValue src i = .ok (v, j) ∧ bytesFrom src j = encode cs := by
  obtain ⟨body, rfl, hbody⟩ := hlit
  rw [List.append_assoc, List.cons_append, List.append_assoc, List.singleton_append] at h
  have hq := skipSpace_blank hw (by decide) h
  rw [encode_ascii (by decide)] at hq
  obtain ⟨j, hj, hrest⟩ := stringAt_complete hbody (bytesFrom_succ hq)
  refine ⟨j, ?_, hrest⟩
  rw [stringValue]
  simp only [getElem?_of_bytesFrom hq]
  rw [String.ofList_toList] at hj
  exact hj

/-- What the reader of a string value returns is the text of a literal after white space. -/
theorem stringValue_sound {cs : List Char} {v : String} {j : Nat}
    (h : bytesFrom src i = encode cs) (hr : stringValue src i = .ok (v, j)) :
    ∃ w lit rest, cs = w ++ lit ++ rest ∧ Blank w ∧ StringLit lit v ∧
      bytesFrom src j = encode rest := by
  obtain ⟨w, r, rfl, hw, hk⟩ := skipSpace_sound h
  unfold stringValue at hr
  dsimp only at hr
  split at hr
  · cases hr
  · -- an opening quote
    rename_i hq
    obtain ⟨r', rfl, hk'⟩ := ascii_at hk hq (by decide)
    obtain ⟨body, rest, rfl, hbody, hj⟩ := stringAt_sound hk' hr
    exact ⟨w, '"' :: (body ++ ['"']), rest, by simp, hw, ⟨body, rfl, hbody⟩, hj⟩
  · cases hr

end Literal

end TestDispatch.Json
