import TestDispatch.Json.Read
/-! Decoding typed values from JSON bytes as derived deserialisers do: a structure is an object
of its fields or a sequence of them; unknown fields are skipped, repeated or missing ones
refused. -/
namespace TestDispatch.Json

/-! ### Sequences and the ends of containers -/

/-- Where the next element of a sequence starts, from `i`, or `none` at the closing bracket.
Elements after the first are preceded by a comma. -/
def nextElement (src : ByteArray) (first : Bool) (i : Nat) : Except ReadError (Option Nat) :=
  let j := skipSpace src i
  match src[j]? with
  | none => .error (faultAhead src .eofList j)
  | some 0x5D => .ok none
  | some c =>
    if first then .ok (some j)
    else if c = 0x2C then
      let k := skipSpace src (j + 1)
      match src[k]? with
      | some 0x5D => .error (faultAhead src .trailingComma k)
      | some _ => .ok (some k)
      | none => .error (faultAhead src .eofValue k)
    else .error (faultAhead src .expectedListCommaOrEnd j)

def endSeq (src : ByteArray) (i : Nat) : Except ReadError Nat :=
  let j := skipSpace src i
  match src[j]? with
  | some 0x5D => .ok (j + 1)
  | some 0x2C =>
    let k := skipSpace src (j + 1)
    match src[k]? with
    | some 0x5D => .error (faultAhead src .trailingComma k)
    | _ => .error (faultAhead src .trailingCharacters k)
  | some _ => .error (faultAhead src .trailingCharacters j)
  | none => .error (faultAhead src .eofList j)

/-- Where closing a sequence from `i` stops looking, whether or not it succeeds. -/
def seqStop (src : ByteArray) (i : Nat) : Nat :=
  let j := skipSpace src i
  match src[j]? with
  | some 0x5D => j + 1
  | some 0x2C => skipSpace src (j + 1)
  | _ => j

def endMap (src : ByteArray) (i : Nat) : Except ReadError Nat :=
  let j := skipSpace src i
  match src[j]? with
  | some 0x7D => .ok (j + 1)
  | some 0x2C => .error (faultAhead src .trailingComma j)
  | some _ => .error (faultAhead src .trailingCharacters j)
  | none => .error (faultAhead src .eofObject j)

def mapStop (src : ByteArray) (i : Nat) : Nat :=
  let j := skipSpace src i
  if src[j]? = some 0x7D then j + 1 else j

def seqElements {α : Type} (src : ByteArray) (elem : Nat → Step α) :
    Nat → Bool → List α → Nat → Except ReadError (List α × Nat)
  | 0, _, _, i => .error (faultAhead src .eofList i)
  | fuel + 1, first, acc, i => do
    match ← nextElement src first i with
    | none => pure (acc.reverse, i)
    | some j =>
      let (x, k) ← elem j
      seqElements src elem fuel false (x :: acc) k

def seqValue {α : Type} (src : ByteArray) (elem : Nat → Step α) (i : Nat) :
    Except ReadError (List α × Nat) :=
  let i := skipSpace src i
  match src[i]? with
  | none => .error (faultAhead src .eofValue i)
  | some 0x5B => do
    let (xs, j) ← seqElements src elem (src.size + 1) true [] (i + 1)
    pure (xs, ← endSeq src j)
  | some _ => .error (wrongValue src i .sequence)

/-! ### Structures -/

def seqField {β : Type} (src : ByteArray) (first : Bool) (n : Nat) (what : String)
    (read : Nat → Step β) (i : Nat) : Step β :=
  match nextElement src first i with
  | .error e => .error e
  | .ok none => .error (faultAt src (.invalidLength n what) (seqStop src i))
  | .ok (some j) => read j

/-- A field's value after its key, which ends at `j`: a field seen before is refused before its
colon, and otherwise its value is read after the colon. -/
def knownField {β : Type} (src : ByteArray) (name : String) (seen : Bool) (read : Nat → Step β)
    (j : Nat) : Except ReadError (β × Nat) :=
  if seen then .error (faultAt src (.duplicateField name) (mapStop src j))
  else do read (← colon src j)

def requireField {β : Type} (src : ByteArray) (name : String) (v : Option β) (j : Nat) :
    Except ReadError β :=
  match v with
  | some x => .ok x
  | none => .error (faultAt src (.missingField name) (mapStop src j))

/-- A structure named `name` from `i`: a sequence read by `ofSeq` or an object read by `ofMap`,
each from the index after its opening bracket. -/
def structValue {α : Type} (src : ByteArray) (name : String) (ofSeq ofMap : Nat → Step α)
    (i : Nat) : Except ReadError (α × Nat) :=
  let i := skipSpace src i
  match src[i]? with
  | none => .error (faultAhead src .eofValue i)
  | some 0x5B => do
    let (x, j) ← ofSeq (i + 1)
    pure (x, ← endSeq src j)
  | some 0x7B => do
    let (x, j) ← ofMap (i + 1)
    pure (x, ← endMap src j)
  | some _ => .error (wrongValue src i (.structure name))

/-! ### Numbers -/

def u64Value (src : ByteArray) (i : Nat) : Step Nat :=
  let i := skipSpace src i
  let found (r : Step Unexpected) : Step Nat :=
    match r with
    | .ok (.unsigned n, j) => .ok (n, j)
    | .ok (.signed v, j) => .error (faultAt src (.invalidValue (.signed v) .u64) j)
    | .ok (u, j) => .error (faultAt src (.invalidType u .u64) j)
    | .error e => .error e
  match src[i]? with
  | none => .error (faultAhead src .eofValue i)
  | some 0x2D => found (number false src (i + 1))
  | some c => if isDigit c then found (number true src i) else .error (wrongValue src i .u64)

/-! ### Skipped values

A value of a field nobody reads is skipped without being decoded: its syntax is checked, but
numbers are not evaluated, a `\u` escape may name any code and a string need not be UTF-8. -/

def isShortEscape (c : UInt8) : Bool :=
  c = 0x22 ∨ c = 0x5C ∨ c = 0x2F ∨ c = 0x62 ∨ c = 0x66 ∨ c = 0x6E ∨ c = 0x72 ∨ c = 0x74

def skipString (src : ByteArray) : Nat → Nat → Except ReadError Nat
  | 0, i => .error (faultAt src .eofString i)
  | fuel + 1, i =>
    match src[i]? with
    | none => .error (faultAt src .eofString i)
    | some b =>
      if b = 0x22 then .ok (i + 1)
      else if b = 0x5C then
        match src[i + 1]? with
        | none => .error (faultAt src .eofString (i + 1))
        | some c =>
          if c = 0x75 then
            match hexEscape src (i + 2) with
            | .ok (_, j) => skipString src fuel j
            | .error e => .error e
          else if isShortEscape c then skipString src fuel (i + 2)
          else .error (faultAt src .invalidEscape (i + 2))
      else if b < 0x20 then .error (faultAt src .controlCharacter i)
      else skipString src fuel (i + 1)

def skipExponent (src : ByteArray) (i : Nat) : Except ReadError Nat :=
  let j := if src[i + 1]? = some 0x2B ∨ src[i + 1]? = some 0x2D then i + 2 else i + 1
  match src[j]? with
  | some c => if isDigit c then .ok (skipDigits src (j + 1)) else .error (faultAt src .invalidNumber (j + 1))
  | none => .error (faultAt src .invalidNumber j)

def skipFraction (src : ByteArray) (i : Nat) : Except ReadError Nat :=
  if src[i]? = some 0x2E then
    let j := skipDigits src (i + 1)
    if j = i + 1 then .error (faultAhead src .invalidNumber j)
    else if isExponentMark src j then skipExponent src j
    else .ok j
  else if isExponentMark src i then skipExponent src i
  else .ok i

def skipNumber (src : ByteArray) (i : Nat) : Except ReadError Nat :=
  match src[i]? with
  | some 0x30 =>
    if (src[i + 1]?).any isDigit then .error (faultAhead src .invalidNumber (i + 1))
    else skipFraction src (i + 1)
  | some c =>
    if isDigit c then skipFraction src (skipDigits src (i + 1))
    else .error (faultAt src .invalidNumber (i + 1))
  | none => .error (faultAt src .invalidNumber i)

def skipScalar (src : ByteArray) (c : UInt8) (i : Nat) : Except ReadError Nat :=
  if c = 0x6E then ident src [0x75, 0x6C, 0x6C] (i + 1)
  else if c = 0x74 then ident src [0x72, 0x75, 0x65] (i + 1)
  else if c = 0x66 then ident src [0x61, 0x6C, 0x73, 0x65] (i + 1)
  else if c = 0x2D then skipNumber src (i + 1)
  else if isDigit c then skipNumber src i
  else if c = 0x22 then skipString src src.size (i + 1)
  else .error (faultAhead src .expectedValue i)

def skipKey (src : ByteArray) (object : Bool) (i : Nat) : Except ReadError Nat :=
  if object then
    let j := skipSpace src i
    match src[j]? with
    | some 0x22 => do
      let k := skipSpace src (← skipString src src.size (j + 1))
      match src[k]? with
      | some 0x3A => pure (k + 1)
      | some _ => throw (faultAhead src .expectedColon k)
      | none => throw (faultAhead src .eofObject k)
    | some _ => .error (faultAhead src .keyMustBeString j)
    | none => .error (faultAhead src .eofObject j)
  else .ok i

mutual

/-- Skip a value from `i`, inside the open containers `frames` (innermost first, `true` for an
object). A value is skipped without recursion: opening a container pushes it, and what follows
a value is handled by `skipAfter`. -/
def skipValue (src : ByteArray) : Nat → List Bool → Nat → Except ReadError Nat
  | 0, _, i => .error (faultAhead src .eofValue i)
  | fuel + 1, frames, i =>
    let j := skipSpace src i
    match src[j]? with
    | none => .error (faultAhead src .eofValue j)
    | some 0x5B => skipAfter src fuel false (false :: frames) (j + 1)
    | some 0x7B => skipAfter src fuel false (true :: frames) (j + 1)
    | some c =>
      match skipScalar src c j with
      | .error e => .error e
      | .ok k => if frames.isEmpty then .ok k else skipAfter src fuel true frames k

/-- After a value or an opening bracket at `i`: close containers, or go on to their next member.
A comma may come only after a value (`comma`). -/
def skipAfter (src : ByteArray) : Nat → Bool → List Bool → Nat → Except ReadError Nat
  | 0, _, _, i => .error (faultAhead src .eofValue i)
  | _, _, [], i => .ok i
  | fuel + 1, comma, object :: outer, i =>
    let j := skipSpace src i
    match src[j]? with
    | none => .error (faultAhead src (if object then .eofObject else .eofList) j)
    | some c =>
      if comma ∧ c = 0x2C then
        match skipKey src object (j + 1) with
        | .ok k => skipValue src fuel (object :: outer) k
        | .error e => .error e
      else if (c = 0x5D ∧ !object) ∨ (c = 0x7D ∧ object) then
        if outer.isEmpty then .ok (j + 1) else skipAfter src fuel true outer (j + 1)
      else if comma then
        .error (faultAhead src (if object then .expectedCommaOrEnd else .expectedListCommaOrEnd) j)
      else
        match skipKey src object j with
        | .ok k => skipValue src fuel (object :: outer) k
        | .error e => .error e

end

def ignoredValue (src : ByteArray) (i : Nat) : Except ReadError Nat :=
  skipValue src (2 * src.size + 2) [] i

def ignoredField (src : ByteArray) (j : Nat) : Except ReadError Nat := do
  ignoredValue src (← colon src j)

/-! ### Documents -/

/-- A whole document holding one value read by `value`: only blanks may follow it. -/
def document {α : Type} (src : ByteArray) (value : Nat → Step α) : Except ReadError α := do
  let (x, j) ← value 0
  let k := skipSpace src j
  if k < src.size then throw (faultAhead src .trailingCharacters k)
  pure x

end TestDispatch.Json
