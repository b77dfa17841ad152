import TestDispatch.Arithmetic
/-! The leaves of TOML 1.0: strings in their four forms, keys, booleans, numbers and dates, each
read from a prefix of the input. -/
namespace TestDispatch.Toml

open scoped TestDispatch.Arithmetic

/-- A value as far as a reader of the document needs it: strings and integers with their
contents, the other kinds by kind only. -/
inductive Value
  | string (s : String)
  | integer (i : Int)
  | float
  | boolean (b : Bool)
  | datetime
  | array
  | table
deriving DecidableEq, Repr

abbrev Reader (α : Type) := List Char → Option (α × List Char)

def isBlank (c : Char) : Bool := c = ' ' ∨ c = '\t'

def skipBlank : List Char → List Char
  | c :: r => if isBlank c then skipBlank r else c :: r
  | [] => []

def isCommentChar (c : Char) : Bool := c = '\t' ∨ (0x20 ≤ c.toNat ∧ c.toNat ≤ 0x7E) ∨ 0x80 ≤ c.toNat

def commentRest : List Char → Option (List Char)
  | [] => some []
  | '\n' :: r => some ('\n' :: r)
  | '\r' :: r => some ('\r' :: r)
  | c :: r => if isCommentChar c then commentRest r else none

def newline? : List Char → Option (List Char)
  | '\n' :: r => some r
  | '\r' :: '\n' :: r => some r
  | _ => none

def hexVal (c : Char) : Option Nat :=
  if '0' ≤ c ∧ c ≤ '9' then some (c.toNat - 48)
  else if 'a' ≤ c ∧ c ≤ 'f' then some (c.toNat - 87)
  else if 'A' ≤ c ∧ c ≤ 'F' then some (c.toNat - 55)
  else none

def hexNumber (ds : List Char) : Option Nat :=
  ds.foldl (fun acc c => acc.bind fun n => (hexVal c).map (16 * n + ·)) (some 0)

def scalar? (n : Nat) : Option Char :=
  if n < 0xD800 ∨ (0xDFFF < n ∧ n ≤ 0x10FFFF) then some (Char.ofNat n) else none

def escape : Reader Char
  | 'b' :: r => some ('\x08', r)
  | 't' :: r => some ('\t', r)
  | 'n' :: r => some ('\n', r)
  | 'f' :: r => some ('\x0c', r)
  | 'r' :: r => some ('\r', r)
  | '"' :: r => some ('"', r)
  | '\\' :: r => some ('\\', r)
  | 'u' :: r => (hexNumber (r.take 4)).bind fun n =>
      if (r.take 4).length = 4 then (scalar? n).map fun c => (c, r.drop 4) else none
  | 'U' :: r => (hexNumber (r.take 8)).bind fun n =>
      if (r.take 8).length = 8 then (scalar? n).map fun c => (c, r.drop 8) else none
  | _ => none

def isBasicChar (c : Char) : Bool :=
  c = '\t' ∨ (0x20 ≤ c.toNat ∧ c.toNat ≠ 0x7F ∧ c ≠ '"' ∧ c ≠ '\\')

def isLiteralChar (c : Char) : Bool := c = '\t' ∨ (0x20 ≤ c.toNat ∧ c.toNat ≠ 0x7F ∧ c ≠ '\'')

def basicBody : Nat → List Char → Reader String
  | 0, _, _ => none
  | _ + 1, acc, '"' :: r => some (String.ofList acc.reverse, r)
  | fuel + 1, acc, '\\' :: r => (escape r).bind fun (c, r') => basicBody fuel (c :: acc) r'
  | fuel + 1, acc, c :: r => if isBasicChar c then basicBody fuel (c :: acc) r else none
  | _ + 1, _, [] => none

def literalBody : List Char → Reader String
  | acc, '\'' :: r => some (String.ofList acc.reverse, r)
  | acc, c :: r => if isLiteralChar c then literalBody (c :: acc) r else none
  | _, [] => none

def dropFirstNewline (cs : List Char) : List Char := (newline? cs).getD cs

def runLength (q : Char) : List Char → Nat
  | c :: r => if c = q then runLength q r + 1 else 0
  | [] => 0

def skipBlankLines : List Char → List Char
  | c :: r => if isBlank c ∨ c = '\n' then skipBlankLines r
    else if c = '\r' ∧ r.head? = some '\n' then skipBlankLines r
    else c :: r
  | [] => []

def lineContinuation (cs : List Char) : Option (List Char) :=
  (newline? (skipBlank cs)).map skipBlankLines

/-- The body of a multi-line string delimited by three `q`s, through the closing delimiter.
One or two delimiter characters may end the body right before it. `basic` allows escapes. -/
def multilineBody (q : Char) (basic : Bool) : Nat → List Char → Reader String
  | 0, _, _ => none
  | _ + 1, _, [] => none
  | fuel + 1, acc, c :: r =>
    if c = q then
      let n := runLength q (c :: r)
      if n < 3 then multilineBody q basic fuel (List.replicate n q ++ acc) ((c :: r).drop n)
      else if n ≤ 5 then some (String.ofList (List.replicate (n - 3) q ++ acc).reverse, (c :: r).drop n)
      else none
    else if c = '\\' ∧ basic then
      match lineContinuation r with
      | some r' => multilineBody q basic fuel acc r'
      | none => (escape r).bind fun (e, r') => multilineBody q basic fuel (e :: acc) r'
    else if c = '\n' then multilineBody q basic fuel ('\n' :: acc) r
    else if c = '\r' ∧ r.head? = some '\n' then multilineBody q basic fuel ('\n' :: '\r' :: acc) r.tail
    else if (if basic then isBasicChar c else isLiteralChar c) then
      multilineBody q basic fuel (c :: acc) r
    else none

def string : Reader String
  | '"' :: '"' :: '"' :: r => multilineBody '"' true (r.length + 1) [] (dropFirstNewline r)
  | '"' :: r => basicBody (r.length + 1) [] r
  | '\'' :: '\'' :: '\'' :: r => multilineBody '\'' false (r.length + 1) [] (dropFirstNewline r)
  | '\'' :: r => literalBody [] r
  | _ => none

def isBareKeyChar (c : Char) : Bool := c.isAlphanum ∧ c.toNat < 0x80 ∨ c = '-' ∨ c = '_'

def span (p : Char → Bool) : List Char → List Char × List Char
  | c :: r => if p c then let (a, b) := span p r; (c :: a, b) else ([], c :: r)
  | [] => ([], [])

def simpleKey : Reader String
  | '"' :: r => basicBody (r.length + 1) [] r
  | '\'' :: r => literalBody [] r
  | cs =>
    let (k, rest) := span isBareKeyChar cs
    if k.isEmpty then none else some (String.ofList k, rest)

def dottedKey : Nat → List String → Reader (List String)
  | 0, _, _ => none
  | fuel + 1, acc, cs =>
    (simpleKey cs).bind fun (k, r) =>
      match skipBlank r with
      | '.' :: r' => dottedKey fuel (k :: acc) (skipBlank r')
      | _ => some ((k :: acc).reverse, r)

def key (cs : List Char) : Option (List String × List Char) := dottedKey (cs.length + 1) [] cs

def isDigitChar (c : Char) : Bool := '0' ≤ c ∧ c ≤ '9'

/-- Digits separated by single underscores, each underscore between two digits of `digit`. -/
def underscored (digit : Char → Bool) : List Char → Bool
  | [] => false
  | [c] => digit c
  | c :: '_' :: r => digit c ∧ r.head?.any digit ∧ underscored digit r
  | c :: r => digit c ∧ underscored digit r

def digitsValue (base : Nat) (cs : List Char) : Nat :=
  (cs.filter (· ≠ '_')).foldl (fun n c => base * n + ((hexVal c).getD 0)) 0

def isUnsignedDec (cs : List Char) : Bool :=
  match cs with
  | ['0'] => true
  | '0' :: _ => false
  | _ => underscored isDigitChar cs

def sign : List Char → Bool × List Char
  | '+' :: r => (true, r)
  | '-' :: r => (false, r)
  | cs => (true, cs)

def i64Max : Int := 2 ^ (63 : Nat) - 1

/-- The integer written by a token, if it is one that fits 64 signed bits. -/
def integer? (cs : List Char) : Option Int :=
  let ranged (n : Int) : Option Int := if -(2 ^ (63 : Nat)) ≤ n ∧ n ≤ i64Max then some n else none
  match cs with
  | '0' :: 'x' :: r => if underscored (fun c => (hexVal c).isSome) r then ranged (digitsValue 16 r) else none
  | '0' :: 'o' :: r => if underscored (fun c => '0' ≤ c ∧ c ≤ '7') r then ranged (digitsValue 8 r) else none
  | '0' :: 'b' :: r => if underscored (fun c => c = '0' ∨ c = '1') r then ranged (digitsValue 2 r) else none
  | _ =>
    let (positive, r) := sign cs
    if isUnsignedDec r then
      let n : Int := digitsValue 10 r
      ranged (if positive then n else -n)
    else none

def isExponent (cs : List Char) : Bool := underscored isDigitChar (sign cs).2

/-- Whether a token is a float. -/
def isFloat (cs : List Char) : Bool :=
  let (_, r) := sign cs
  if r = ['i', 'n', 'f'] ∨ r = ['n', 'a', 'n'] then true
  else
    let (whole, rest) := span (fun c => isDigitChar c ∨ c = '_') r
    isUnsignedDec whole &&
      match rest with
      | '.' :: frac =>
        let (fd, rest') := span (fun c => isDigitChar c ∨ c = '_') frac
        underscored isDigitChar fd &&
          match rest' with
          | [] => true
          | e :: ex => (e == 'e' || e == 'E') && isExponent ex
      | e :: ex => (e == 'e' || e == 'E') && isExponent ex
      | [] => false

def isNumberChar (c : Char) : Bool := c.isAlphanum ∧ c.toNat < 0x80 ∨ c = '_' ∨ c = '+' ∨ c = '-' ∨ c = '.'

def fixedDigits (n : Nat) (cs : List Char) : Option (Nat × List Char) :=
  if (cs.take n).length = n ∧ (cs.take n).all isDigitChar then some (digitsValue 10 (cs.take n), cs.drop n)
  else none

def isLeap (y : Nat) : Bool := (y % 4 = 0 ∧ y % 100 ≠ 0) ∨ y % 400 = 0

def daysIn (y m : Nat) : Nat :=
  if m = 2 then (if isLeap y then 29 else 28)
  else if m = 4 ∨ m = 6 ∨ m = 9 ∨ m = 11 then 30 else 31

def date (cs : List Char) : Option (List Char) := do
  let (y, r) ← fixedDigits 4 cs
  let r ← match r with | '-' :: r => some r | _ => none
  let (m, r) ← fixedDigits 2 r
  let r ← match r with | '-' :: r => some r | _ => none
  let (d, r) ← fixedDigits 2 r
  if 1 ≤ m ∧ m ≤ 12 ∧ 1 ≤ d ∧ d ≤ daysIn y m then some r else none

def time (cs : List Char) : Option (List Char) := do
  let (h, r) ← fixedDigits 2 cs
  let r ← match r with | ':' :: r => some r | _ => none
  let (m, r) ← fixedDigits 2 r
  let r ← match r with | ':' :: r => some r | _ => none
  let (s, r) ← fixedDigits 2 r
  if h ≤ 23 ∧ m ≤ 59 ∧ s ≤ 60 then
    match r with
    | '.' :: f =>
      let (ds, rest) := span isDigitChar f
      if ds.isEmpty then none else some rest
    | _ => some r
  else none

def offset (cs : List Char) : Option (List Char) :=
  match cs with
  | 'Z' :: r | 'z' :: r => some r
  | c :: r =>
    if c = '+' ∨ c = '-' then do
      let (h, r) ← fixedDigits 2 r
      let r ← match r with | ':' :: r => some r | _ => none
      let (m, r) ← fixedDigits 2 r
      if h ≤ 23 ∧ m ≤ 59 then some r else none
    else some (c :: r)
  | [] => some []

def looksLikeDatetime (cs : List Char) : Bool :=
  ((cs.take 4).all isDigitChar ∧ (cs.take 4).length = 4 ∧ (cs.drop 4).head? = some '-') ∨
  ((cs.take 2).all isDigitChar ∧ (cs.take 2).length = 2 ∧ (cs.drop 2).head? = some ':')

/-- A date, a date and time (with an optional offset), or a time. -/
def datetime (cs : List Char) : Option (List Char) :=
  match date cs with
  | some r =>
    match r with
    | c :: r' =>
      if c = 'T' ∨ c = 't' ∨ (c = ' ' ∧ r'.head?.any isDigitChar) then (time r').bind offset
      else some r
    | [] => some []
  | none => time cs

def scalarValue : Reader Value
  | cs =>
    if looksLikeDatetime cs then (datetime cs).map fun r => (.datetime, r)
    else
      let (tok, rest) := span isNumberChar cs
      if tok = ['t', 'r', 'u', 'e'] then some (.boolean true, rest)
      else if tok = ['f', 'a', 'l', 's', 'e'] then some (.boolean false, rest)
      else match integer? tok with
        | some n => some (.integer n, rest)
        | none => if isFloat tok then some (.float, rest) else none

end TestDispatch.Toml
