import TestDispatch.Json.Read
import TestDispatch.Proofs.Json.Grammar
import TestDispatch.Proofs.Text.Utf8
import Mathlib.Data.List.TakeWhile
/-! The reader's view of its input: the bytes ahead of an index, and skipping white space as
skipping the blank characters ahead (`skipSpace_spec`). -/
namespace TestDispatch.Json

open Text.Utf8

/-- The bytes of the document from index `i` on. -/
def bytesFrom (src : ByteArray) (i : Nat) : List UInt8 := src.data.toList.drop i

section View

variable {src : ByteArray} {i : Nat} {b : UInt8} {r : List UInt8}

theorem bytesFrom_zero_toUTF8 (s : String) : bytesFrom s.toUTF8 0 = encode s.toList := by
  rw [bytesFrom, List.drop_zero, ← bytes_eq_encode, bytes_eq_toUTF8, ByteArray.toList, toList_loop]
  simp

theorem getElem?_eq_head?_bytesFrom : src[i]? = (bytesFrom src i).head? := by
  rw [bytesFrom, List.head?_drop, getElem?_def, getElem?_def]
  simp [ByteArray.getElem_eq_getElem_data]

theorem getElem?_of_bytesFrom (h : bytesFrom src i = b :: r) : src[i]? = some b := by
  rw [getElem?_eq_head?_bytesFrom, h, List.head?_cons]

theorem getElem?_of_bytesFrom_nil (h : bytesFrom src i = []) : src[i]? = none := by
  rw [getElem?_eq_head?_bytesFrom, h, List.head?_nil]

theorem getElem!_of_bytesFrom (h : bytesFrom src i = b :: r) : src[i]! = b := by
  rw [getElem!_def, getElem?_of_bytesFrom h]

theorem bytesFrom_succ (h : bytesFrom src i = b :: r) : bytesFrom src (i + 1) = r := by
  rw [bytesFrom, ← List.drop_drop, ← bytesFrom, h, List.drop_one, List.tail_cons]

theorem bytesFrom_add (xs : List UInt8) (h : bytesFrom src i = xs ++ r) :
    bytesFrom src (i + xs.length) = r := by
  rw [bytesFrom, ← List.drop_drop, ← bytesFrom, h, List.drop_left]

theorem length_bytesFrom : (bytesFrom src i).length = src.size - i := by
  simp [bytesFrom]

theorem getElem_of_bytesFrom (h : bytesFrom src i = b :: r) (hi : i < src.size) : src[i] = b := by
  have h' := getElem?_of_bytesFrom h
  rw [getElem?_pos src i hi, Option.some.injEq] at h'
  exact h'

theorem lt_size_of_bytesFrom (h : bytesFrom src i = b :: r) : i < src.size := by
  have := congrArg List.length h
  rw [length_bytesFrom, List.length_cons] at this
  omega

theorem size_le_of_bytesFrom (h : bytesFrom src i = []) : src.size ≤ i := by
  have := congrArg List.length h
  rw [length_bytesFrom, List.length_nil] at this
  omega

end View

section Ascii

variable {src : ByteArray} {i : Nat} {c : Char} {cs : List Char}

theorem ascii_ahead {b : UInt8} {r : List UInt8} (h : bytesFrom src i = encode cs)
    (hb : bytesFrom src i = b :: r) (hlt : b.toNat < 0x80) :
    ∃ cs', cs = Char.ofNat b.toNat :: cs' ∧ bytesFrom src (i + 1) = encode cs' := by
  obtain ⟨cs', rfl, hr⟩ := eq_ascii_of_encode_eq_cons (h ▸ hb) hlt
  exact ⟨cs', rfl, hr ▸ bytesFrom_succ hb⟩

theorem ascii_at {b : UInt8} (h : bytesFrom src i = encode cs) (hb : src[i]? = some b)
    (hlt : b.toNat < 0x80) :
    ∃ cs', cs = Char.ofNat b.toNat :: cs' ∧ bytesFrom src (i + 1) = encode cs' := by
  rw [getElem?_eq_head?_bytesFrom] at hb
  obtain ⟨r, hr⟩ : ∃ r, bytesFrom src i = b :: r := by
    cases hx : bytesFrom src i with
    | nil => rw [hx] at hb; cases hb
    | cons x r =>
      rw [hx, List.head?_cons, Option.some.injEq] at hb
      exact ⟨r, by rw [hb]⟩
  exact ascii_ahead h hr hlt

theorem isSpace_ascii : ∀ n : Fin 128, isSpace (UInt8.ofNat n) = isBlank (Char.ofNat n) := by
  decide

theorem isSpace_ofNat (hc : c.toNat < 0x80) : isSpace (UInt8.ofNat c.toNat) = isBlank c := by
  have := isSpace_ascii ⟨c.toNat, hc⟩
  rwa [Char.ofNat_toNat] at this

theorem isSpace_high {b : UInt8} (h : 0x80 ≤ b.toNat) : isSpace b = false := by
  simp only [isSpace, ← UInt8.toNat_inj, UInt8.reduceToNat]
  simp
  omega

theorem toNat_lt_of_isBlank (h : isBlank c = true) : c.toNat < 0x80 := by
  simp only [isBlank, Bool.or_eq_true, decide_eq_true_eq] at h
  rcases h with ((rfl | rfl) | rfl) | rfl <;> decide

/-- Skipping white space skips the blank characters ahead. -/
theorem skipSpace_spec (h : bytesFrom src i = encode cs) :
    skipSpace src i = i + (cs.takeWhile isBlank).length ∧
      bytesFrom src (skipSpace src i) = encode (cs.dropWhile isBlank) := by
  induction cs generalizing i with
  | nil =>
    rw [skipSpace, dif_neg (Nat.not_lt.mpr (size_le_of_bytesFrom h))]
    exact ⟨rfl, h⟩
  | cons c cs ih =>
    obtain ⟨b, t, he⟩ := List.exists_cons_of_ne_nil (String.utf8EncodeChar_ne_nil (c := c))
    have hb : bytesFrom src i = b :: (t ++ encode cs) := by rw [h, encode_cons, he, List.cons_append]
    rw [skipSpace, dif_pos (lt_size_of_bytesFrom hb), getElem_of_bytesFrom hb]
    by_cases hc : c.toNat < 0x80
    · -- an ASCII character: white space is skipped, anything else stops
      rw [utf8EncodeChar_ascii hc, List.cons.injEq] at he
      obtain ⟨rfl, rfl⟩ := he
      rw [isSpace_ofNat hc]
      cases hblank : isBlank c
      · simp [hblank, h]
      · obtain ⟨h₁, h₂⟩ := ih (bytesFrom_succ hb)
        simp only [if_true, List.takeWhile_cons, List.dropWhile_cons, hblank, h₁,
          List.length_cons]
        exact ⟨by omega, by rw [← h₂, h₁, Nat.add_assoc, Nat.add_comm 1]⟩
    · -- a character beyond ASCII is no white space
      have hhigh := high_of_utf8EncodeChar (by omega) b (he ▸ List.mem_cons_self ..)
      have hblank : isBlank c = false := by
        cases hbl : isBlank c
        · rfl
        · exact absurd (toNat_lt_of_isBlank hbl) hc
      simp [isSpace_high hhigh, hblank, h]

theorem blank_nil : Blank [] := fun _ hc => nomatch hc

theorem blank_takeWhile (cs : List Char) : Blank (cs.takeWhile isBlank) :=
  fun _ hc => List.mem_takeWhile_imp hc

theorem dropWhile_blank_append {w : List Char} (hw : Blank w) (hc : isBlank c = false)
    (r : List Char) : (w ++ c :: r).dropWhile isBlank = c :: r := by
  rw [List.dropWhile_append_of_pos hw, List.dropWhile_cons_of_neg (by simp [hc])]

theorem skipSpace_blank {w r : List Char} (hw : Blank w) (hc : isBlank c = false)
    (h : bytesFrom src i = encode (w ++ c :: r)) :
    bytesFrom src (skipSpace src i) = encode (c :: r) := by
  rw [(skipSpace_spec h).2, dropWhile_blank_append hw hc]

theorem skipSpace_nonblank {r : List Char} (hc : isBlank c = false)
    (h : bytesFrom src i = encode (c :: r)) : skipSpace src i = i := by
  rw [(skipSpace_spec h).1, List.takeWhile_cons_of_neg (by simp [hc]), List.length_nil,
    Nat.add_zero]

theorem skipSpace_sound (h : bytesFrom src i = encode cs) :
    ∃ w r, cs = w ++ r ∧ Blank w ∧ bytesFrom src (skipSpace src i) = encode r :=
  ⟨_, _, List.takeWhile_append_dropWhile.symm, blank_takeWhile cs, (skipSpace_spec h).2⟩

/-- Skipping white space reaches the end of the document exactly when only blanks are left. -/
theorem size_le_skipSpace_iff (h : bytesFrom src i = encode cs) :
    src.size ≤ skipSpace src i ↔ Blank cs := by
  have hk := (skipSpace_spec h).2
  constructor
  · intro hle
    have hnil : bytesFrom src (skipSpace src i) = [] := by
      rw [← List.length_eq_zero_iff, length_bytesFrom]
      omega
    rw [hk, encode_eq_nil, List.dropWhile_eq_nil_iff] at hnil
    exact hnil
  · intro hb
    apply size_le_of_bytesFrom
    rw [hk, List.dropWhile_eq_nil_iff.mpr hb, encode_nil]

end Ascii

end TestDispatch.Json
