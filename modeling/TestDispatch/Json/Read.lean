import TestDispatch.Text.Utf8
import TestDispatch.Json.Float
import TestDispatch.Arithmetic
/-! Reading a JSON object of string values with the reader's diagnostics, at a line and a byte
column. Duplicate keys keep the last value, and the result is sorted by key. -/
namespace TestDispatch.Json

open scoped TestDispatch.Arithmetic

inductive Unexpected
  | null
  | bool (b : Bool)
  | unsigned (n : Nat)
  | signed (i : Int)
  | float (text : String)
  | string (s : String)
  | sequence
  | map
deriving DecidableEq, Repr

inductive Expected
  | map
  | string
  | u64
  | sequence
  | structure (name : String)
deriving DecidableEq, Repr

/-- Why a document was refused. -/
inductive Fault
  | eofValue
  | eofObject
  | eofString
  | expectedColon
  | expectedCommaOrEnd
  | expectedIdent
  | expectedValue
  | keyMustBeString
  | trailingComma
  | trailingCharacters
  | invalidEscape
  | invalidNumber
  | numberOutOfRange
  | controlCharacter
  | loneLeadingSurrogate
  | unexpectedEndOfHexEscape
  | invalidUnicodeCodePoint
  | eofList
  | expectedListCommaOrEnd
  | invalidType (found : Unexpected) (expected : Expected)
  | invalidValue (found : Unexpected) (expected : Expected)
  /-- A sequence of `length` elements, where the text says what was expected. -/
  | invalidLength (length : Nat) (expected : String)
  | missingField (name : String)
  | duplicateField (name : String)
deriving DecidableEq, Repr

structure ReadError where
  fault : Fault
  line : Nat
  column : Nat
deriving DecidableEq, Repr

/-- The escaped form of a character in a quoted debug string: the usual short escapes, and
`\u{...}` for control and invisible formatting characters. -/
def debugChar (c : Char) : String :=
  let n := c.toNat
  if c = '"' then "\\\""
  else if c = '\\' then "\\\\"
  else if c = '\n' then "\\n"
  else if c = '\r' then "\\r"
  else if c = '\t' then "\\t"
  else if n = 0 then "\\0"
  else if n < 0x20 ∨ (0x7F ≤ n ∧ n < 0xA0) ∨ n = 0xAD ∨ (0x300 ≤ n ∧ n < 0x370) ∨
      (0x200B ≤ n ∧ n ≤ 0x200F) ∨ (0x2028 ≤ n ∧ n ≤ 0x202E) ∨ (0x2060 ≤ n ∧ n ≤ 0x2064) ∨
      n = 0xFEFF then
    "\\u\x7b" ++ String.ofList (Nat.toDigits 16 n) ++ "\x7d"
  else String.singleton c

def debugQuote (s : String) : String := "\"" ++ String.join (s.toList.map debugChar) ++ "\""

def Unexpected.describe : Unexpected → String
  | .null => "null"
  | .bool b => "boolean " ++ "\x60" ++ toString b ++ "\x60"
  | .unsigned n => "integer " ++ "\x60" ++ toString n ++ "\x60"
  | .signed i => "integer " ++ "\x60" ++ toString i ++ "\x60"
  | .float t => "floating point " ++ "\x60" ++ t ++ "\x60"
  | .string s => "string " ++ debugQuote s
  | .sequence => "sequence"
  | .map => "map"

def Expected.describe : Expected → String
  | .map => "a map"
  | .string => "a string"
  | .u64 => "u64"
  | .sequence => "a sequence"
  | .structure name => "struct " ++ name

def Fault.message : Fault → String
  | .eofValue => "EOF while parsing a value"
  | .eofObject => "EOF while parsing an object"
  | .eofString => "EOF while parsing a string"
  | .expectedColon => "expected " ++ "\x60:\x60"
  | .expectedCommaOrEnd => "expected " ++ "\x60,\x60 or \x60\x7d\x60"
  | .expectedIdent => "expected ident"
  | .expectedValue => "expected value"
  | .keyMustBeString => "key must be a string"
  | .trailingComma => "trailing comma"
  | .trailingCharacters => "trailing characters"
  | .invalidEscape => "invalid escape"
  | .invalidNumber => "invalid number"
  | .numberOutOfRange => "number out of range"
  | .controlCharacter => "control character (\\u0000-\\u001F) found while parsing a string"
  | .loneLeadingSurrogate => "lone leading surrogate in hex escape"
  | .unexpectedEndOfHexEscape => "unexpected end of hex escape"
  | .invalidUnicodeCodePoint => "invalid unicode code point"
  | .eofList => "EOF while parsing a list"
  | .expectedListCommaOrEnd => "expected " ++ "\x60,\x60 or \x60]\x60"
  | .invalidType found expected =>
    "invalid type: " ++ found.describe ++ ", expected " ++ expected.describe
  | .invalidValue found expected =>
    "invalid value: " ++ found.describe ++ ", expected " ++ expected.describe
  | .invalidLength n expected => "invalid length " ++ toString n ++ ", expected " ++ expected
  | .missingField name => "missing field " ++ "\x60" ++ name ++ "\x60"
  | .duplicateField name => "duplicate field " ++ "\x60" ++ name ++ "\x60"

def ReadError.message (e : ReadError) : String :=
  s!"{e.fault.message} at line {e.line} column {e.column}"

def newline : UInt8 := 0x0A

/-- The number of newlines in `bs` and the index just after the last one. -/
def lineStart : List UInt8 → Nat → Nat × Nat → Nat × Nat
  | [], _, acc => acc
  | b :: bs, i, (lines, start) =>
    lineStart bs (i + 1) (if b = newline then (lines + 1, i + 1) else (lines, start))

def faultAt (src : ByteArray) (f : Fault) (i : Nat) : ReadError :=
  let (lines, start) := lineStart (src.toList.take i) 0 (0, 0)
  ⟨f, lines + 1, i - start⟩

def faultAhead (src : ByteArray) (f : Fault) (i : Nat) : ReadError :=
  faultAt src f (min src.size (i + 1))

abbrev Step (α : Type) := Except ReadError (α × Nat)

def isSpace (b : UInt8) : Bool := b = 0x20 ∨ b = 0x0A ∨ b = 0x09 ∨ b = 0x0D

def isDigit (b : UInt8) : Bool := 0x30 ≤ b ∧ b ≤ 0x39

def digitOf (b : UInt8) : Nat := b.toNat - 0x30

def skipSpace (src : ByteArray) (i : Nat) : Nat :=
  if h : i < src.size then
    if isSpace src[i] then skipSpace src (i + 1) else i
  else i
termination_by src.size - i

def hexValue (b : UInt8) : Option Nat :=
  if isDigit b then some (digitOf b)
  else if 0x61 ≤ b ∧ b ≤ 0x66 then some (b.toNat - 0x57)
  else if 0x41 ≤ b ∧ b ≤ 0x46 then some (b.toNat - 0x37)
  else none

def hexQuad (src : ByteArray) (i : Nat) : Option Nat → Option Nat → Option Nat → Option Nat →
    Step Nat
  | some a, some b, some c, some d => .ok (((a * 16 + b) * 16 + c) * 16 + d, i + 4)
  | _, _, _, _ => .error (faultAt src .invalidEscape (i + 4))

def hexEscape (src : ByteArray) (i : Nat) : Step Nat :=
  if i + 4 > src.size then .error (faultAt src .eofString src.size)
  else hexQuad src i (hexValue src[i]!) (hexValue src[i + 1]!) (hexValue src[i + 2]!)
    (hexValue src[i + 3]!)

def codePointBytes (n : Nat) : List UInt8 := Text.Utf8.bytes (String.singleton (Char.ofNat n))

/-- A `\u` escape after the `u`: a scalar outside the surrogates, or a leading surrogate
followed by `\u` and a trailing one. -/
def unicodeEscape (src : ByteArray) (i : Nat) : Except ReadError (List UInt8 × Nat) := do
  let (n, j) ← hexEscape src i
  if 0xDC00 ≤ n ∧ n ≤ 0xDFFF then throw (faultAt src .loneLeadingSurrogate j)
  if n < 0xD800 ∨ n > 0xDBFF then return (codePointBytes n, j)
  match src[j]? with
  | none => throw (faultAt src .eofString j)
  | some b =>
    if b ≠ 0x5C then throw (faultAt src .unexpectedEndOfHexEscape (j + 1))
    match src[j + 1]? with
    | none => throw (faultAt src .eofString (j + 1))
    | some c =>
      if c ≠ 0x75 then throw (faultAt src .unexpectedEndOfHexEscape (j + 2))
      let (n2, k) ← hexEscape src (j + 2)
      if n2 < 0xDC00 ∨ n2 > 0xDFFF then throw (faultAt src .loneLeadingSurrogate k)
      return (codePointBytes ((n - 0xD800) * 1024 + (n2 - 0xDC00) + 0x10000), k)

def escape (src : ByteArray) (i : Nat) : Step (List UInt8) :=
  match src[i]? with
  | none => .error (faultAt src .eofString i)
  | some c =>
    if c = 0x22 ∨ c = 0x5C ∨ c = 0x2F then .ok ([c], i + 1)
    else if c = 0x62 then .ok ([0x08], i + 1)
    else if c = 0x66 then .ok ([0x0C], i + 1)
    else if c = 0x6E then .ok ([0x0A], i + 1)
    else if c = 0x72 then .ok ([0x0D], i + 1)
    else if c = 0x74 then .ok ([0x09], i + 1)
    else if c = 0x75 then unicodeEscape src (i + 1)
    else .error (faultAt src .invalidEscape (i + 1))

/-- The bytes of a string body from `i` (after the opening quote), kept newest first in `acc`,
up to and past the closing quote. -/
def stringBody (src : ByteArray) : Nat → Nat → List UInt8 → Step (List UInt8)
  | 0, i, _ => .error (faultAt src .eofString i)
  | fuel + 1, i, acc =>
    match src[i]? with
    | none => .error (faultAt src .eofString i)
    | some b =>
      if b = 0x22 then .ok (acc.reverse, i + 1)
      else if b = 0x5C then
        match escape src (i + 1) with
        | .ok (bs, j) => stringBody src fuel j (bs.reverse ++ acc)
        | .error e => .error e
      else if b < 0x20 then .error (faultAt src .controlCharacter (i + 1))
      else stringBody src fuel (i + 1) (b :: acc)

def stringAt (src : ByteArray) (i : Nat) : Except ReadError (String × Nat) := do
  let (bs, j) ← stringBody src src.size i []
  match Text.Utf8.text? bs with
  | some s => pure (s, j)
  | none => throw (faultAt src .invalidUnicodeCodePoint j)

def floatFound (positive : Bool) (significand : Nat) (exponent : Int) (src : ByteArray)
    (i : Nat) : Step Unexpected :=
  match Binary64.ofDecimal significand exponent with
  | some f => .ok (.float (Binary64.text (!positive) f), i)
  | none => .error (faultAt src .numberOutOfRange i)

def u64Max : Nat := 2 ^ (64 : Nat) - 1

def i32Max : Int := 2 ^ (31 : Nat) - 1

def saturate (n : Int) : Int := max (-(2 ^ (31 : Nat))) (min i32Max n)

def skipDigits (src : ByteArray) (i : Nat) : Nat :=
  if h : i < src.size then
    if isDigit src[i] then skipDigits src (i + 1) else i
  else i
termination_by src.size - i

/-- More exponent digits after an overflow: out of range unless the result is zero. -/
def exponentOverflow (positive zero positiveExp : Bool) (src : ByteArray) (i : Nat) :
    Step Unexpected :=
  if !zero && positiveExp then .error (faultAt src .numberOutOfRange i)
  else .ok (.float (if positive then "0.0" else "-0.0"), skipDigits src i)

def exponentDigits (positive : Bool) (significand : Nat) (start : Int) (positiveExp : Bool)
    (src : ByteArray) (exp : Nat) (i : Nat) : Step Unexpected :=
  if h : i < src.size then
    if isDigit src[i] then
      let e := exp * 10 + digitOf src[i]
      if (e : Int) > i32Max then exponentOverflow positive (significand = 0) positiveExp src (i + 1)
      else exponentDigits positive significand start positiveExp src e (i + 1)
    else
      floatFound positive significand (saturate (if positiveExp then start + exp else start - exp)) src i
  else floatFound positive significand (saturate (if positiveExp then start + exp else start - exp)) src i
termination_by src.size - i

def exponentAt (positive : Bool) (significand : Nat) (start : Int) (src : ByteArray) (i : Nat) :
    Step Unexpected :=
  let (positiveExp, j) := match src[i + 1]? with
    | some 0x2B => (true, i + 2)
    | some 0x2D => (false, i + 2)
    | _ => (true, i + 1)
  match src[j]? with
  | none => .error (faultAt src .eofValue j)
  | some c =>
    if isDigit c then exponentDigits positive significand start positiveExp src (digitOf c) (j + 1)
    else .error (faultAt src .invalidNumber (j + 1))

def isExponentMark (src : ByteArray) (i : Nat) : Bool := src[i]? = some 0x65 ∨ src[i]? = some 0x45

/-- Fraction digits after overflow: ignored. -/
def fractionOverflow (positive : Bool) (significand : Nat) (exponent : Int) (src : ByteArray)
    (i : Nat) : Step Unexpected :=
  let j := skipDigits src i
  if isExponentMark src j then exponentAt positive significand exponent src j
  else floatFound positive significand exponent src j

def fractionDigits (positive : Bool) (significand : Nat) (before : Int) (src : ByteArray)
    (count : Nat) (i : Nat) : Step Unexpected :=
  if h : i < src.size then
    if isDigit src[i] then
      let s := significand * 10 + digitOf src[i]
      if s > u64Max then fractionOverflow positive significand (before - count) src i
      else fractionDigits positive s before src (count + 1) (i + 1)
    else if count = 0 then .error (faultAhead src .invalidNumber i)
    else if isExponentMark src i then exponentAt positive significand (before - count) src i
    else floatFound positive significand (before - count) src i
  else if count = 0 then .error (faultAhead src .eofValue i)
  else floatFound positive significand (before - count) src i
termination_by src.size - i

/-- Integer digits past what fits in 64 bits: each one scales the value by ten. -/
def longInteger (positive : Bool) (significand : Nat) (src : ByteArray) (exp : Nat) (i : Nat) :
    Step Unexpected :=
  if h : i < src.size then
    if isDigit src[i] then longInteger positive significand src (exp + 1) (i + 1)
    else if src[i] = 0x2E then fractionDigits positive significand exp src 0 (i + 1)
    else if isExponentMark src i then exponentAt positive significand exp src i
    else floatFound positive significand exp src i
  else floatFound positive significand exp src i
termination_by src.size - i

def numberTail (positive : Bool) (significand : Nat) (src : ByteArray) (i : Nat) :
    Step Unexpected :=
  if src[i]? = some 0x2E then fractionDigits positive significand 0 src 0 (i + 1)
  else if isExponentMark src i then exponentAt positive significand 0 src i
  else if positive then .ok (.unsigned significand, i)
  else if significand = 0 ∨ significand > 2 ^ (63 : Nat) then
    .ok (.float (Binary64.text true (Binary64.ofNat significand)), i)
  else .ok (.signed (-(significand : Int)), i)

def integerDigits (positive : Bool) (src : ByteArray) (significand : Nat) (i : Nat) :
    Step Unexpected :=
  if h : i < src.size then
    if isDigit src[i] then
      let s := significand * 10 + digitOf src[i]
      if s > u64Max then longInteger positive significand src 0 i
      else integerDigits positive src s (i + 1)
    else numberTail positive significand src i
  else numberTail positive significand src i
termination_by src.size - i

def number (positive : Bool) (src : ByteArray) (i : Nat) : Step Unexpected :=
  match src[i]? with
  | none => .error (faultAt src .eofValue i)
  | some c =>
    if c = 0x30 then
      match src[i + 1]? with
      | some d => if isDigit d then .error (faultAhead src .invalidNumber (i + 1))
        else numberTail positive 0 src (i + 1)
      | none => numberTail positive 0 src (i + 1)
    else if isDigit c then integerDigits positive src (digitOf c) (i + 1)
    else .error (faultAt src .invalidNumber (i + 1))

def ident (src : ByteArray) : List UInt8 → Nat → Except ReadError Nat
  | [], i => .ok i
  | b :: bs, i =>
    match src[i]? with
    | none => .error (faultAt src .eofValue i)
    | some c => if c = b then ident src bs (i + 1) else .error (faultAt src .expectedIdent (i + 1))

/-- The type error for the value starting at `i`, which is not the expected kind. -/
def wrongValue (src : ByteArray) (i : Nat) (expected : Expected) : ReadError :=
  let found (r : Step Unexpected) : ReadError :=
    match r with
    | .ok (u, j) => faultAt src (.invalidType u expected) j
    | .error e => e
  match src[i]? with
  | some 0x6E => found ((ident src [0x75, 0x6C, 0x6C] (i + 1)).map fun j => (.null, j))
  | some 0x74 => found ((ident src [0x72, 0x75, 0x65] (i + 1)).map fun j => (.bool true, j))
  | some 0x66 => found ((ident src [0x61, 0x6C, 0x73, 0x65] (i + 1)).map fun j => (.bool false, j))
  | some 0x2D => found (number false src (i + 1))
  | some 0x22 => found ((stringAt src (i + 1)).map fun (s, j) => (.string s, j))
  | some 0x5B => faultAt src (.invalidType .sequence expected) i
  | some 0x7B => faultAt src (.invalidType .map expected) i
  | some c => if isDigit c then found (number true src i) else faultAhead src .expectedValue i
  | none => faultAhead src .expectedValue i

def stringValue (src : ByteArray) (i : Nat) : Step String :=
  let i := skipSpace src i
  match src[i]? with
  | none => .error (faultAhead src .eofValue i)
  | some 0x22 => stringAt src (i + 1)
  | some _ => .error (wrongValue src i .string)

def insertSorted (k v : String) : List (String × String) → List (String × String)
  | [] => [(k, v)]
  | (k', v') :: rest =>
    if k < k' then (k, v) :: (k', v') :: rest
    else if k = k' then (k, v) :: rest
    else (k', v') :: insertSorted k v rest

/-- Where the key of the next member starts, from `i`: its opening quote, or `none` at the
closing brace. Members after the first are preceded by a comma. -/
def nextKey (src : ByteArray) (first : Bool) (i : Nat) : Except ReadError (Option Nat) :=
  let j := skipSpace src i
  match src[j]? with
  | none => .error (faultAhead src .eofObject j)
  | some 0x7D => .ok none
  | some c =>
    if first then
      if c = 0x22 then .ok (some j) else .error (faultAhead src .keyMustBeString j)
    else if c = 0x2C then
      let k := skipSpace src (j + 1)
      match src[k]? with
      | some 0x22 => .ok (some k)
      | some 0x7D => .error (faultAhead src .trailingComma k)
      | some _ => .error (faultAhead src .keyMustBeString k)
      | none => .error (faultAhead src .eofValue k)
    else .error (faultAhead src .expectedCommaOrEnd j)

def colon (src : ByteArray) (i : Nat) : Except ReadError Nat :=
  let j := skipSpace src i
  match src[j]? with
  | some 0x3A => .ok (j + 1)
  | some _ => .error (faultAhead src .expectedColon j)
  | none => .error (faultAhead src .eofObject j)

/-- The members of an object from `i`, each key handed with the index after it to `entry`, which
reads the rest of the member into the state; the result ends at the closing brace. -/
def visitMap {σ : Type} (src : ByteArray) (entry : σ → String → Nat → Step σ) :
    Nat → Bool → σ → Nat → Except ReadError (σ × Nat)
  | 0, _, _, i => .error (faultAhead src .eofObject i)
  | fuel + 1, first, st, i => do
    match ← nextKey src first i with
    | none => pure (st, skipSpace src i)
    | some k =>
      let (key, j) ← stringAt src (k + 1)
      let (st, l) ← entry st key j
      visitMap src entry fuel false st l

def stringEntry (src : ByteArray) (acc : List (String × String)) (key : String) (j : Nat) :
    Except ReadError (List (String × String) × Nat) := do
  let (v, l) ← stringValue src (← colon src j)
  pure (insertSorted key v acc, l)

/-- Read a whole document as an object of string values, sorted by key. -/
def readStringMap (text : String) : Except ReadError (List (String × String)) := do
  let src := text.toUTF8
  let i := skipSpace src 0
  match src[i]? with
  | none => throw (faultAhead src .eofValue i)
  | some 0x7B =>
    let (entries, j) ← visitMap src (stringEntry src) (src.size + 1) true [] (i + 1)
    let k := skipSpace src (j + 1)
    if k < src.size then throw (faultAhead src .trailingCharacters k)
    return entries
  | some _ => throw (wrongValue src i .map)

end TestDispatch.Json
