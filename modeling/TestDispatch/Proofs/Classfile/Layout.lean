import TestDispatch.Classfile.Encode
import TestDispatch.Proofs.Except
import Mathlib.Data.List.Basic
import Mathlib.Data.Nat.Bitwise
/-! Reading a laid-out header. Entries written field by field read back slot by slot, so the
header reads exactly when `this_class` leads to a class entry and a UTF-8 entry. -/
namespace TestDispatch.Classfile

open TestDispatch.Text

theorem u8_cons (b : UInt8) (rest : List UInt8) : u8 (b :: rest) = .ok (b.toNat, rest) := rfl

theorem u16_word16 (n : Nat) (rest : List UInt8) :
    u16 (word16 n ++ rest) = .ok (n % 65536, rest) := by
  simp only [word16, List.cons_append, List.nil_append, u16, UInt8.toNat_ofNat']
  congr 2
  omega

theorem u32_word32 {n : Nat} (hn : n < 4294967296) (rest : List UInt8) :
    u32 (word32 n ++ rest) = .ok (n, rest) := by
  simp only [word32, List.cons_append, List.nil_append, u32, UInt8.toNat_ofNat']
  congr 2
  omega

theorem u32_magic (rest : List UInt8) : u32 (word32 magic ++ rest) = .ok (magic, rest) :=
  u32_word32 (by decide) rest

theorem take_append {raw : List UInt8} {n : Nat} (hn : raw.length = n) (rest : List UInt8) :
    take n (raw ++ rest) = .ok (raw, rest) := by
  subst hn
  simp [take]

theorem fixedPayload_tag {tag n : Nat} (h : fixedPayload tag = some n) :
    tag < 256 ∧ tag ≠ 1 ∧ tag ≠ 5 ∧ tag ≠ 6 ∧ tag ≠ 7 := by
  unfold fixedPayload at h
  split at h <;> first | omega | simp at h

namespace PoolEntry

def view : PoolEntry → Constant × Bool
  | utf8 raw => (.utf8 (Utf8.lossy raw), false)
  | classRef i => (.classRef i, false)
  | wide .. => (.other, true)
  | fixed .. => (.other, false)

/-- The entries a header can hold: a UTF-8 string of at most 65535 bytes, a class entry with a
16-bit index, eight payload bytes under tag 5 or 6, or an accepted fixed-size tag with a payload
of its size. -/
def WellFormed : PoolEntry → Prop
  | utf8 raw => raw.length < 65536
  | classRef i => i < 65536
  | wide tag payload => (tag = 5 ∨ tag = 6) ∧ payload.length = 8
  | fixed tag payload => fixedPayload tag = some payload.length

instance : (e : PoolEntry) → Decidable e.WellFormed
  | utf8 raw => inferInstanceAs (Decidable (raw.length < 65536))
  | classRef i => inferInstanceAs (Decidable (i < 65536))
  | wide tag payload => inferInstanceAs (Decidable ((tag = 5 ∨ tag = 6) ∧ payload.length = 8))
  | fixed tag payload => inferInstanceAs (Decidable (fixedPayload tag = some payload.length))

def starts (e : PoolEntry) : List (Option PoolEntry) :=
  some e :: List.replicate (e.slots - 1) none

theorem readEntry_encode (e : PoolEntry) (he : e.WellFormed) (rest : List UInt8) :
    readEntry (e.encode ++ rest) = .ok (e.view, rest) := by
  cases e with
  | utf8 raw =>
    have hlen : raw.length < 65536 := he
    simp only [encode, List.cons_append, List.append_assoc, readEntry, u8_cons]
    simp [u16_word16, Nat.mod_eq_of_lt hlen, take_append rfl, view]
  | classRef i =>
    have hi : i < 65536 := he
    simp [encode, readEntry, u8_cons, u16_word16, Nat.mod_eq_of_lt hi, view]
  | wide tag payload =>
    obtain ⟨htag, hlen⟩ := he
    rcases htag with rfl | rfl <;> simp [encode, readEntry, u8_cons, take_append hlen, view]
  | fixed tag payload =>
    have hp : fixedPayload tag = some payload.length := he
    obtain ⟨hlt, h1, h5, h6, h7⟩ := fixedPayload_tag hp
    have htag : (UInt8.ofNat tag).toNat = tag := by
      rw [UInt8.toNat_ofNat']
      omega
    simp only [encode, List.cons_append, readEntry, u8_cons, htag]
    simp [h1, h5, h6, h7, hp, take_append rfl, view]

theorem slotsOf_view_size (e : PoolEntry) : (slotsOf e.view).size = e.slots := by
  cases e <;> rfl

end PoolEntry

def slotCount (E : List PoolEntry) : Nat := (E.map PoolEntry.slots).sum

@[simp] theorem slotCount_nil : slotCount [] = 0 := rfl

@[simp] theorem slotCount_cons (e : PoolEntry) (E : List PoolEntry) :
    slotCount (e :: E) = e.slots + slotCount E := by
  simp [slotCount]

/-- The pool loop, asked for `count` slots from slot 1 on, stops right after the last entry:
`count` lies past the slots of the entries before it and within those of all of them. -/
def StopsAfter (count : Nat) : List PoolEntry → Prop
  | [] => count ≤ 1
  | e :: E => 1 + slotCount (e :: E).dropLast < count ∧ count ≤ 1 + slotCount (e :: E)

instance (count : Nat) : (E : List PoolEntry) → Decidable (StopsAfter count E)
  | [] => inferInstanceAs (Decidable (count ≤ 1))
  | e :: E => inferInstanceAs (Decidable (1 + slotCount (e :: E).dropLast < count ∧
      count ≤ 1 + slotCount (e :: E)))

def poolOf (E : List PoolEntry) : Array Constant :=
  (E.flatMap fun e => (slotsOf e.view).toList).toArray

theorem poolOf_cons (e : PoolEntry) (E : List PoolEntry) :
    poolOf (e :: E) = slotsOf e.view ++ poolOf E := by
  simp [poolOf]

/-- The entry whose first slot is `i`, slots counted from 1 in entry order. Slot 0, the second
slot of a wide entry and the slots past the pool hold none. -/
def entryAt (E : List PoolEntry) (i : Nat) : Option PoolEntry :=
  ((none :: E.flatMap PoolEntry.starts)[i]?).join

def slotConstant : Option PoolEntry → Constant
  | none => .unusable
  | some e => e.view.1

theorem slotsOf_view (e : PoolEntry) : (slotsOf e.view).toList = e.starts.map slotConstant := by
  cases e <;> rfl

theorem pool_eq_map (E : List PoolEntry) :
    #[Constant.unusable] ++ poolOf E =
      ((none :: E.flatMap PoolEntry.starts).map slotConstant).toArray := by
  simp [poolOf, slotsOf_view, List.map_flatMap, slotConstant]

theorem slotConstant_eq_classRef {o : Option PoolEntry} {n : Nat} :
    slotConstant o = .classRef n ↔ o = some (.classRef n) := by
  rcases o with _ | (_ | _ | _ | _) <;> simp [slotConstant, PoolEntry.view]

theorem slotConstant_eq_utf8 {o : Option PoolEntry} {s : String} :
    slotConstant o = .utf8 s ↔ ∃ raw, o = some (.utf8 raw) ∧ Utf8.lossy raw = s := by
  rcases o with _ | (_ | _ | _ | _) <;> simp [slotConstant, PoolEntry.view]

theorem readPool_stop {count : Nat} {slots : Array Constant} (h : count ≤ slots.size)
    (bs : List UInt8) : readPool count slots bs = .ok (slots, bs) := by
  rw [readPool]
  simp [Nat.not_lt.mpr h]

theorem readPool_step {count : Nat} {slots : Array Constant} (h : slots.size < count)
    {bs rest : List UInt8} {entry : Constant × Bool} (hread : readEntry bs = .ok (entry, rest)) :
    readPool count slots bs = readPool count (slots ++ slotsOf entry) rest := by
  rw [readPool]
  simp [h, hread]

/-- The pool loop over written entries, from any slots already filled: each entry is read in
turn, and the loop stops after the last one because `count` lies in its slots. -/
theorem readPool_encode (count : Nat) (E : List PoolEntry) (hE : ∀ e ∈ E, e.WellFormed)
    (hne : E ≠ []) (acc : Array Constant) (rest : List UInt8)
    (hlt : acc.size + slotCount E.dropLast < count) (hle : count ≤ acc.size + slotCount E) :
    readPool count acc (E.flatMap PoolEntry.encode ++ rest) = .ok (acc ++ poolOf E, rest) := by
  induction E generalizing acc with
  | nil => contradiction
  | cons e E ih =>
    have hread := e.readEntry_encode (hE e (by simp)) (E.flatMap PoolEntry.encode ++ rest)
    have hsize : (acc ++ slotsOf e.view).size = acc.size + e.slots := by
      simp [PoolEntry.slotsOf_view_size]
    rw [List.flatMap_cons, List.append_assoc, readPool_step (by omega) hread, poolOf_cons,
      ← Array.append_assoc]
    cases E with
    | nil =>
      simp only [slotCount_cons, slotCount_nil] at hle
      simp [poolOf, readPool_stop (show count ≤ (acc ++ slotsOf e.view).size by omega)]
    | cons e' E' =>
      rw [List.dropLast_cons_cons, slotCount_cons] at hlt
      simp only [slotCount_cons] at hle
      apply ih (fun x hx => hE x (List.mem_cons_of_mem e hx)) (List.cons_ne_nil e' E')
      · rw [hsize, slotCount_cons] at *
        omega
      · rw [hsize, slotCount_cons]
        omega

theorem readPool_of_stopsAfter {count : Nat} {E : List PoolEntry} (hE : ∀ e ∈ E, e.WellFormed)
    (hstop : StopsAfter count E) (rest : List UInt8) :
    readPool count #[.unusable] (E.flatMap PoolEntry.encode ++ rest) =
      .ok (#[.unusable] ++ poolOf E, rest) := by
  cases E with
  | nil => simp [poolOf, readPool_stop (show count ≤ #[Constant.unusable].size from hstop)]
  | cons e E => exact readPool_encode count (e :: E) hE (List.cons_ne_nil e E) _ rest hstop.1 hstop.2

/-- Following `this_class` through a table of slots: the name is found exactly when the slot
holds a class entry whose index names a slot holding a UTF-8 entry. -/
theorem className_eq_ok {table : List (Option PoolEntry)} {this : Nat} {name : String} :
    className (table.map slotConstant).toArray this = .ok name ↔
      ∃ n raw, (table[this]?).join = some (.classRef n) ∧ (table[n]?).join = some (.utf8 raw) ∧
        Utf8.lossy raw = name := by
  unfold className
  simp only [List.getElem?_toArray, List.getElem?_map, Option.join_eq_some_iff]
  constructor
  · intro h
    split at h
    · rename_i n hn
      split at h
      · rename_i s hs
        cases h
        obtain ⟨o, ho, hc⟩ := Option.map_eq_some_iff.mp hn
        obtain ⟨o', ho', hc'⟩ := Option.map_eq_some_iff.mp hs
        obtain ⟨raw, rfl, hraw⟩ := slotConstant_eq_utf8.mp hc'
        exact ⟨n, raw, by rw [ho, slotConstant_eq_classRef.mp hc], ho', hraw⟩
      · cases h
    · cases h
  · rintro ⟨n, raw, hn, hs, rfl⟩
    simp [hn, hs, slotConstant, PoolEntry.view]

theorem parse_headerBytes {count this : Nat} {E : List PoolEntry} (hE : ∀ e ∈ E, e.WellFormed)
    (hcount : count < 65536) (hstop : StopsAfter count E) (hthis : this < 65536)
    (minor major flags : Nat) (trailer : List UInt8) :
    Header.parse (headerBytes minor major count E flags this trailer) =
      (fun name => ⟨name, flags % 65536⟩) <$> className (#[.unusable] ++ poolOf E) this := by
  simp only [headerBytes, List.append_assoc, Header.parse, u32_magic, Except.ok_bind, ne_eq,
    not_true_eq_false, if_false, u16_word16, readPool_of_stopsAfter hE hstop,
    Nat.mod_eq_of_lt hcount, Nat.mod_eq_of_lt hthis]
  cases className (#[.unusable] ++ poolOf E) this <;> rfl

theorem header_parse_eq_ok {count this : Nat} {E : List PoolEntry} (hE : ∀ e ∈ E, e.WellFormed)
    (hcount : count < 65536) (hstop : StopsAfter count E) (hthis : this < 65536)
    (minor major flags : Nat) (trailer : List UInt8) (h : Header) :
    Header.parse (headerBytes minor major count E flags this trailer) = .ok h ↔
      ∃ n raw, entryAt E this = some (.classRef n) ∧ entryAt E n = some (.utf8 raw) ∧
        h = ⟨Utf8.lossy raw, flags % 65536⟩ := by
  rw [parse_headerBytes hE hcount hstop hthis, pool_eq_map, Except.fmap_eq_ok]
  constructor
  · rintro ⟨name, hname, rfl⟩
    obtain ⟨n, raw, hn, hs, rfl⟩ := className_eq_ok.mp hname
    exact ⟨n, raw, hn, hs, rfl⟩
  · rintro ⟨n, raw, hn, hs, rfl⟩
    exact ⟨Utf8.lossy raw, className_eq_ok.mpr ⟨n, raw, hn, hs, rfl⟩, rfl⟩

theorem ClassDescriptor.parse_eq_ok {p : Path} {bytes : List UInt8} {d : ClassDescriptor} :
    ClassDescriptor.parse p bytes = .ok d ↔
      ∃ h, Header.parse bytes = .ok h ∧ ClassDescriptor.ofHeader p h = d := by
  unfold ClassDescriptor.parse
  cases Header.parse bytes <;> simp

theorem testBit_mod_eq_and (flags : Nat) {i : Nat} (hi : i < 16) :
    (flags % 65536).testBit i = (flags &&& 2 ^ i != 0) := by
  rw [show 65536 = 2 ^ 16 from rfl, Nat.testBit_mod_two_pow, Nat.and_two_pow]
  cases flags.testBit i <;> simp [hi]

/-- A laid-out header reads exactly when slot `this` holds a class entry whose name index
names a slot holding a UTF-8 entry; the descriptor then carries the path, the lossily decoded
name with `/` read as `.`, and the interface and abstract bits of the flags. -/
theorem parse_headerBytes_eq_ok_iff (p : Path) {count this : Nat} {E : List PoolEntry}
    (hE : ∀ e ∈ E, e.WellFormed) (hcount : count < 65536) (hstop : StopsAfter count E)
    (hthis : this < 65536) (minor major flags : Nat) (trailer : List UInt8)
    (d : ClassDescriptor) :
    ClassDescriptor.parse p (headerBytes minor major count E flags this trailer) = .ok d ↔
      ∃ n raw, entryAt E this = some (.classRef n) ∧ entryAt E n = some (.utf8 raw) ∧
        d = { path := p
              className := (Utf8.lossy raw).map fun c => if c = '/' then '.' else c
              isInterface := flags &&& 0x200 != 0
              isAbstract := flags &&& 0x400 != 0 } := by
  have hinterface := testBit_mod_eq_and flags (show 9 < 16 by decide)
  have habstract := testBit_mod_eq_and flags (show 10 < 16 by decide)
  rw [ClassDescriptor.parse_eq_ok]
  constructor
  · rintro ⟨h, hh, rfl⟩
    obtain ⟨n, raw, hn, hs, rfl⟩ :=
      (header_parse_eq_ok hE hcount hstop hthis minor major flags trailer h).mp hh
    refine ⟨n, raw, hn, hs, ?_⟩
    simp [ClassDescriptor.ofHeader, ClassDescriptor.interfaceBit, ClassDescriptor.abstractBit,
      hinterface, habstract]
  · rintro ⟨n, raw, hn, hs, rfl⟩
    refine ⟨_, (header_parse_eq_ok hE hcount hstop hthis minor major flags trailer _).mpr
      ⟨n, raw, hn, hs, rfl⟩, ?_⟩
    simp [ClassDescriptor.ofHeader, ClassDescriptor.interfaceBit, ClassDescriptor.abstractBit,
      hinterface, habstract]

/-- A long constant before the name moves the UTF-8 entry to slot 3 and the class entry to
slot 4; a pool count of 5 stops the loop right after it. -/
theorem parse_headerBytes_wide_first :
    (∀ e ∈ [.wide 5 [0, 0, 0, 0, 0, 0, 0, 42], .utf8 [97, 47, 66], .classRef 3],
        PoolEntry.WellFormed e) ∧ 5 < 65536 ∧
      StopsAfter 5 [.wide 5 [0, 0, 0, 0, 0, 0, 0, 42], .utf8 [97, 47, 66], .classRef 3] ∧
      4 < 65536 ∧
      (ClassDescriptor.parse ⟨"B.class"⟩ (headerBytes 0 52 5
          [.wide 5 [0, 0, 0, 0, 0, 0, 0, 42], .utf8 [97, 47, 66], .classRef 3] 0x21 4 []) =
          .ok ⟨⟨"B.class"⟩, "a.B", false, false⟩ ↔
        ∃ n raw,
          entryAt [.wide 5 [0, 0, 0, 0, 0, 0, 0, 42], .utf8 [97, 47, 66], .classRef 3] 4 =
            some (.classRef n) ∧
          entryAt [.wide 5 [0, 0, 0, 0, 0, 0, 0, 42], .utf8 [97, 47, 66], .classRef 3] n =
            some (.utf8 raw) ∧
          (⟨⟨"B.class"⟩, "a.B", false, false⟩ : ClassDescriptor) =
            { path := ⟨"B.class"⟩
              className := (Utf8.lossy raw).map fun c => if c = '/' then '.' else c
              isInterface := 0x21 &&& 0x200 != 0
              isAbstract := 0x21 &&& 0x400 != 0 }) :=
  ⟨by decide, by decide, by decide, by decide,
    parse_headerBytes_eq_ok_iff ⟨"B.class"⟩ (by decide) (by decide) (by decide) (by decide)
      0 52 0x21 [] _⟩

end TestDispatch.Classfile
