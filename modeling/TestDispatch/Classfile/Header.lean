import TestDispatch.Path
import TestDispatch.Fs.Error
import TestDispatch.Text.Utf8
/-! The header of a compiled JVM class, read as far as `this_class`: the class name, found
through its UTF-8 entry, and two access flags. Later bytes are never read. -/
namespace TestDispatch.Classfile

open TestDispatch.Text

/-- A constant-pool slot, as far as finding the class name needs. -/
inductive Constant
  | utf8 (text : String)
  | classRef (nameIndex : Nat)
  | other
  | unusable
deriving DecidableEq, Repr

inductive PoolFault
  | unknownTag (tag : Nat)
  | notAClassEntry (index : Nat)
  | nameNotUtf8 (index : Nat)
deriving DecidableEq, Repr

def PoolFault.message : PoolFault → String
  | .unknownTag tag => s!"unknown constant pool tag {tag}"
  | .notAClassEntry index => s!"this_class #{index} is not a class entry"
  | .nameNotUtf8 index => s!"class name #{index} is not a UTF-8 entry"

inductive HeaderError
  | badMagic
  | truncated
  | malformed (fault : PoolFault)
deriving DecidableEq, Repr

/-- The fields of a header that test selection uses. -/
structure Header where
  internalName : String
  accessFlags : Nat
deriving DecidableEq, Repr

abbrev Reader (α : Type) := List UInt8 → Except HeaderError (α × List UInt8)

def take (n : Nat) : Reader (List UInt8) := fun bs =>
  if n ≤ bs.length then .ok (bs.take n, bs.drop n) else .error .truncated

def u8 : Reader Nat
  | b :: rest => .ok (b.toNat, rest)
  | [] => .error .truncated

def u16 : Reader Nat
  | a :: b :: rest => .ok (a.toNat * 256 + b.toNat, rest)
  | _ => .error .truncated

def u32 : Reader Nat
  | a :: b :: c :: d :: rest =>
    .ok (((a.toNat * 256 + b.toNat) * 256 + c.toNat) * 256 + d.toNat, rest)
  | _ => .error .truncated

def magic : Nat := 0xCAFEBABE

/-- Payload length of the tags whose entries have a fixed size and are not looked at. -/
def fixedPayload : Nat → Option Nat
  | 3 | 4 | 9 | 10 | 11 | 12 | 17 | 18 => some 4
  | 15 => some 3
  | 8 | 16 | 19 | 20 => some 2
  | _ => none

/-- One constant-pool entry, and whether it takes two slots (8-byte numbers do). -/
def readEntry : Reader (Constant × Bool) := fun bs => do
  let (tag, bs) ← u8 bs
  if tag = 1 then
    let (len, bs) ← u16 bs
    let (raw, bs) ← take len bs
    pure ((.utf8 (Utf8.lossy raw), false), bs)
  else if tag = 7 then
    let (index, bs) ← u16 bs
    pure ((.classRef index, false), bs)
  else if tag = 5 ∨ tag = 6 then
    let (_, bs) ← take 8 bs
    pure ((.other, true), bs)
  else
    match fixedPayload tag with
    | some n =>
      let (_, bs) ← take n bs
      pure ((.other, false), bs)
    | none => throw (.malformed (.unknownTag tag))

def slotsOf : Constant × Bool → Array Constant
  | (c, false) => #[c]
  | (c, true) => #[c, .unusable]

/-- Fill slots while fewer than `count` are filled; a two-slot entry may overshoot. -/
def readPool (count : Nat) (slots : Array Constant) (bs : List UInt8) :
    Except HeaderError (Array Constant × List UInt8) :=
  if slots.size < count then
    match readEntry bs with
    | .ok (entry, rest) => readPool count (slots ++ slotsOf entry) rest
    | .error e => .error e
  else .ok (slots, bs)
termination_by count - slots.size
decreasing_by
  rcases entry with ⟨c, _ | _⟩ <;> simp [slotsOf] <;> omega

def className (pool : Array Constant) (this : Nat) : Except HeaderError String :=
  match pool[this]? with
  | some (.classRef nameIndex) =>
    match pool[nameIndex]? with
    | some (.utf8 name) => .ok name
    | _ => .error (.malformed (.nameNotUtf8 nameIndex))
  | _ => .error (.malformed (.notAClassEntry this))

/-- Read a header: magic, versions, pool (slot 0 is never used), flags and `this_class`. -/
def Header.parse (bytes : List UInt8) : Except HeaderError Header := do
  let (word, bs) ← u32 bytes
  if word ≠ magic then throw .badMagic
  let (_minor, bs) ← u16 bs
  let (_major, bs) ← u16 bs
  let (count, bs) ← u16 bs
  let (pool, bs) ← readPool count #[.unusable] bs
  let (flags, bs) ← u16 bs
  let (this, _) ← u16 bs
  let name ← className pool this
  pure ⟨name, flags⟩

def classSuffix : String := ".class"

/-- What test selection knows about a compiled class. -/
structure ClassDescriptor where
  path : Path
  className : String
  isInterface : Bool
  isAbstract : Bool
deriving DecidableEq, Repr, Inhabited

inductive ClassfileError
  | unreadable (path : Path) (cause : Fs.IoError)
  | header (path : Path) (error : HeaderError)
deriving DecidableEq, Repr

def ClassfileError.message : ClassfileError → String
  | .unreadable p cause => s!"Failed to read class file {p.text}: {cause.message}"
  | .header p .badMagic => s!"{p.text} is not a class file (bad magic number)"
  | .header p .truncated => s!"{p.text} is truncated"
  | .header p (.malformed fault) => s!"Malformed class file {p.text}: {fault.message}"

namespace ClassDescriptor

def interfaceBit : Nat := 9

def abstractBit : Nat := 10

/-- A descriptor from a header: internal name with `/` read as `.`, and the two flags. -/
def ofHeader (path : Path) (h : Header) : ClassDescriptor where
  path := path
  className := h.internalName.map fun c => if c = '/' then '.' else c
  isInterface := h.accessFlags.testBit interfaceBit
  isAbstract := h.accessFlags.testBit abstractBit

def parse (path : Path) (bytes : List UInt8) : Except ClassfileError ClassDescriptor :=
  match Header.parse bytes with
  | .ok h => .ok (ofHeader path h)
  | .error e => .error (.header path e)

def fileName (d : ClassDescriptor) : String := d.path.fileName?.getD ""

end ClassDescriptor

end TestDispatch.Classfile
