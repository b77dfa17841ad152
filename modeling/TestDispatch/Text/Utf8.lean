/-! UTF-8 byte strings: strict decoding, and lossy decoding that replaces each maximal invalid
subpart by U+FFFD. -/
namespace TestDispatch.Text.Utf8

inductive Lead
  | ascii
  /-- A sequence of `len` bytes whose second byte lies in `lo..hi`. -/
  | seq (lo hi : UInt8) (len : Nat)
  | invalid

/-- The lead table of the encoding: which second bytes may follow, and the length. -/
def lead (b : UInt8) : Lead :=
  if b < 0x80 then .ascii
  else if b < 0xC2 then .invalid
  else if b ≤ 0xDF then .seq 0x80 0xBF 2
  else if b = 0xE0 then .seq 0xA0 0xBF 3
  else if b = 0xED then .seq 0x80 0x9F 3
  else if b ≤ 0xEF then .seq 0x80 0xBF 3
  else if b = 0xF0 then .seq 0x90 0xBF 4
  else if b ≤ 0xF3 then .seq 0x80 0xBF 4
  else if b = 0xF4 then .seq 0x80 0x8F 4
  else .invalid

/-- How many of at most `n` bytes continue a sequence, the first in `lo..hi`, the rest
continuation bytes. -/
def continued (lo hi : UInt8) : Nat → List UInt8 → Nat
  | 0, _ => 0
  | _, [] => 0
  | n + 1, c :: cs => if lo ≤ c ∧ c ≤ hi then continued 0x80 0xBF n cs + 1 else 0

def scalar : List UInt8 → Nat
  | [b] => b.toNat
  | [b, c] => (b.toNat % 32) * 64 + c.toNat % 64
  | [b, c, d] => (b.toNat % 16) * 4096 + (c.toNat % 64) * 64 + d.toNat % 64
  | [b, c, d, e] =>
    (b.toNat % 8) * 262144 + (c.toNat % 64) * 4096 + (d.toNat % 64) * 64 + e.toNat % 64
  | _ => 0xFFFD

/-- One step of decoding: a character (`none` for an invalid subpart) and the bytes used. -/
def step (b : UInt8) (rest : List UInt8) : Option Char × Nat :=
  match lead b with
  | .ascii => (some (Char.ofNat b.toNat), 0)
  | .invalid => (none, 0)
  | .seq lo hi len =>
    let k := continued lo hi (len - 1) rest
    if k = len - 1 then (some (Char.ofNat (scalar (b :: rest.take k))), k) else (none, k)

/-- Lossy decoding: each maximal invalid subpart becomes one U+FFFD. -/
def decodeLossy (bytes : List UInt8) : List Char :=
  match bytes with
  | [] => []
  | b :: rest =>
    let (c, used) := step b rest
    c.getD '�' :: decodeLossy (rest.drop used)
termination_by bytes.length
decreasing_by
  simp only [List.length_drop, List.length_cons]
  omega

def decode? (bytes : List UInt8) : Option (List Char) :=
  match bytes with
  | [] => some []
  | b :: rest =>
    match step b rest with
    | (some c, used) => (decode? (rest.drop used)).map (c :: ·)
    | (none, _) => none
termination_by bytes.length
decreasing_by
  simp only [List.length_drop, List.length_cons]
  omega

def lossy (bytes : List UInt8) : String := String.ofList (decodeLossy bytes)

def text? (bytes : List UInt8) : Option String := (decode? bytes).map String.ofList

def bytes (s : String) : List UInt8 := s.toList.flatMap String.utf8EncodeChar

theorem toList_loop (bs : ByteArray) (i : Nat) (r : List UInt8) :
    ByteArray.toList.loop bs i r = r.reverse ++ bs.data.toList.drop i := by
  fun_induction ByteArray.toList.loop bs i r with
  | case1 i r h ih =>
    rw [ih, List.reverse_cons, List.append_assoc, List.singleton_append]
    congr 1
    have hi : i < bs.data.toList.length := by simpa using h
    rw [List.drop_eq_getElem_cons hi]
    simp [ByteArray.get!, h]
  | case2 i r h =>
    have hi : bs.data.toList.length ≤ i := Nat.le_of_not_lt h
    simp [List.drop_eq_nil_of_le hi]

/-- The bytes are those of the string's own encoding. -/
theorem bytes_eq_toUTF8 (s : String) : bytes s = s.toUTF8.toList := by
  rw [ByteArray.toList, toList_loop, String.toUTF8, ← String.utf8Encode_toList, List.utf8Encode,
    List.data_toByteArray]
  simp [bytes]

end TestDispatch.Text.Utf8
