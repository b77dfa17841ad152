import TestDispatch.Classfile.Header
/-! Writing class headers: magic, versions, pool count, entries, access flags, `this_class`
and a trailer. The smallest class file names itself with a UTF-8 entry and a class entry. -/
namespace TestDispatch.Classfile

open TestDispatch.Text

/-- A big-endian 16-bit word; larger numbers keep their low 16 bits. -/
def word16 (n : Nat) : List UInt8 := [UInt8.ofNat (n / 256 % 256), UInt8.ofNat (n % 256)]

def word32 (n : Nat) : List UInt8 :=
  [UInt8.ofNat (n / 16777216 % 256), UInt8.ofNat (n / 65536 % 256),
    UInt8.ofNat (n / 256 % 256), UInt8.ofNat (n % 256)]

/-- A constant-pool entry as it is written. -/
inductive PoolEntry
  /-- Tag 1: a length-prefixed byte string. -/
  | utf8 (raw : List UInt8)
  | classRef (nameIndex : Nat)
  /-- Tags 5 and 6: eight payload bytes, two slots. -/
  | wide (tag : Nat) (payload : List UInt8)
  /-- Any other accepted tag with its fixed-size payload. -/
  | fixed (tag : Nat) (payload : List UInt8)

namespace PoolEntry

def encode : PoolEntry → List UInt8
  | utf8 raw => 1 :: word16 raw.length ++ raw
  | classRef i => 7 :: word16 i
  | wide tag payload => UInt8.ofNat tag :: payload
  | fixed tag payload => UInt8.ofNat tag :: payload

def slots : PoolEntry → Nat
  | wide .. => 2
  | _ => 1

end PoolEntry

def headerBytes (minor major count : Nat) (entries : List PoolEntry) (flags this : Nat)
    (trailer : List UInt8) : List UInt8 :=
  word32 magic ++ word16 minor ++ word16 major ++ word16 count ++
    entries.flatMap PoolEntry.encode ++ word16 flags ++ word16 this ++ trailer

/-- The smallest class file for an internal name: version 52.0, a pool of a UTF-8 name and a
class entry, the given flags, and zero super class, interfaces, fields, methods and
attributes. -/
def classBytes (internalName : String) (flags : Nat) : List UInt8 :=
  headerBytes 0 52 3 [.utf8 (Utf8.bytes internalName), .classRef 1] flags 2
    (List.replicate 10 0)

def defaultFlags : Nat := 0x21

def classFilePath (fqcn : String) : String :=
  (fqcn.map fun c => if c = '.' then '/' else c) ++ ".class"

end TestDispatch.Classfile
