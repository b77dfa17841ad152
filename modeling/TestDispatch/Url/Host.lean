import TestDispatch.Arithmetic
/-! Hosts of URLs: bracketed IPv6 addresses, and domains that are percent-decoded, lower-cased,
checked, decoded from Punycode and read as IPv4 addresses when they end in a number. -/
namespace TestDispatch.Url

open scoped TestDispatch.Arithmetic

/-- Why a URL was refused, named as the parser names it. -/
inductive UrlError
  | relativeWithoutBase
  | emptyHost
  | invalidPort
  | invalidIpv4
  | invalidIpv6
  | invalidDomainName
  | invalidDomainCharacter
deriving DecidableEq, Repr

def UrlError.message : UrlError → String
  | .relativeWithoutBase => "relative URL without a base"
  | .emptyHost => "empty host"
  | .invalidPort => "invalid port number"
  | .invalidIpv4 => "invalid IPv4 address"
  | .invalidIpv6 => "invalid IPv6 address"
  | .invalidDomainName => "invalid international domain name"
  | .invalidDomainCharacter => "invalid domain character"

def hexDigit? (c : Char) : Option Nat :=
  if '0' ≤ c ∧ c ≤ '9' then some (c.toNat - 48)
  else if 'a' ≤ c ∧ c ≤ 'f' then some (c.toNat - 87)
  else if 'A' ≤ c ∧ c ≤ 'F' then some (c.toNat - 55)
  else none

def hexGroup : Nat → List Char → Nat × Nat × List Char
  | 0, cs => (0, 0, cs)
  | n + 1, c :: r =>
    match hexDigit? c with
    | some d =>
      let (k, v, rest) := hexGroup n r
      (k + 1, d * 16 ^ k + v, rest)
    | none => (0, 0, c :: r)
  | _ + 1, [] => (0, 0, [])

def v4Part : Nat → Option Nat → List Char → Option (Option Nat × List Char)
  | 0, acc, cs => some (acc, cs)
  | fuel + 1, acc, c :: r =>
    if '0' ≤ c ∧ c ≤ '9' then
      let d := c.toNat - 48
      match acc with
      | none => v4Part fuel (some d) r
      | some 0 => none
      | some v => if v * 10 + d > 255 then none else v4Part fuel (some (v * 10 + d)) r
    else some (acc, c :: r)
  | _ + 1, acc, [] => some (acc, [])

def v4Tail : Nat → Nat → List Char → Bool
  | 0, _, _ => false
  | fuel + 1, seen, cs =>
    if cs.isEmpty then seen = 4
    else
      let cs' := if seen = 0 then some cs
        else if seen < 4 ∧ cs.head? = some '.' then some cs.tail else none
      match cs' with
      | none => false
      | some cs' =>
        match v4Part (cs'.length + 1) none cs' with
        | some (some _, rest) => v4Tail fuel (seen + 1) rest
        | _ => false

/-- The groups of an IPv6 address from the current group on: `pieces` groups are filled and
`compressed` records a `::`. -/
def v6Groups : Nat → Nat → Bool → List Char → Bool
  | 0, _, _, _ => false
  | fuel + 1, pieces, compressed, cs =>
    match cs with
    | [] => if compressed then true else pieces = 8
    | ':' :: r =>
      if pieces = 8 ∨ compressed then false else v6Groups fuel (pieces + 1) true r
    | _ =>
      if pieces = 8 then false
      else
        let (k, _, rest) := hexGroup 4 cs
        match rest with
        | '.' :: _ =>
          if k = 0 ∨ pieces > 6 then false
          else v4Tail (cs.length + 1) 0 cs && (compressed || pieces + 2 = 8)
        | ':' :: [] => false
        | ':' :: r => v6Groups fuel (pieces + 1) compressed r
        | [] => if compressed then true else pieces + 1 = 8
        | _ => false

def isIpv6 (s : String) : Bool :=
  match s.toList with
  | ':' :: ':' :: r => v6Groups (r.length + 2) 1 true r
  | ':' :: _ => false
  | [_] | [] => false
  | cs => v6Groups (cs.length + 2) 0 false cs

/-- One number of an IPv4 address: decimal, `0x` hex, or octal with a leading zero. -/
def ipv4Number (part : String) : Option Nat :=
  let cs := part.toList
  if cs.isEmpty then none
  else
    let (base, ds) := match cs with
      | '0' :: 'x' :: r | '0' :: 'X' :: r => (16, r)
      | '0' :: r => if r.isEmpty then (10, cs) else (8, r)
      | _ => (10, cs)
    if ds.isEmpty then some 0
    else if ds.all fun c => match hexDigit? c with
        | some d => d < base ∧ (base = 16 ∨ ('0' ≤ c ∧ c ≤ '9'))
        | none => false then
      let n := ds.foldl (fun n c => base * n + (hexDigit? c).getD 0) 0
      if n < 2 ^ (32 : Nat) then some n else none
    else none

/-- Whether the last label of a domain is a number, so that it must be an IPv4 address. -/
def endsInNumber (domain : String) : Bool :=
  let parts := (domain.splitOn ".").reverse
  let last := match parts with
    | "" :: p :: _ => some p
    | "" :: [] => none
    | p :: _ => some p
    | [] => none
  match last with
  | none => false
  | some p => (!p.isEmpty && p.all fun c => '0' ≤ c ∧ c ≤ '9') || (ipv4Number p).isSome

def isIpv4 (domain : String) : Bool :=
  let parts := domain.splitOn "."
  let parts := if parts.getLast? = some "" then parts.dropLast else parts
  if parts.length > 4 ∨ parts.isEmpty then false
  else
    match parts.mapM ipv4Number with
    | none => false
    | some ns =>
      let front := ns.dropLast
      let last := ns.getLastD 0
      last < 256 ^ (4 - front.length) ∧ front.all (· ≤ 255)

def punyDigit (c : Char) : Option Nat :=
  if 'a' ≤ c ∧ c ≤ 'z' then some (c.toNat - 97)
  else if 'A' ≤ c ∧ c ≤ 'Z' then some (c.toNat - 65)
  else if '0' ≤ c ∧ c ≤ '9' then some (c.toNat - 22)
  else none

def adapt (delta numPoints : Nat) (first : Bool) : Nat :=
  let delta := if first then delta / 700 else delta / 2
  let delta := delta + delta / numPoints
  let rec go : Nat → Nat → Nat → Nat
    | 0, d, k => k + 36 * d / (d + 38)
    | fuel + 1, d, k => if d > 455 then go fuel (d / 35) (k + 36) else k + 36 * d / (d + 38)
  go 10 delta 0

def punyInteger : Nat → Nat → Nat → Nat → Nat → List Char → Option (Nat × List Char)
  | 0, _, _, _, _, _ => none
  | _ + 1, _, _, _, _, [] => none
  | fuel + 1, bias, i, w, k, c :: r => do
    let d ← punyDigit c
    let i := i + d * w
    let t := if k ≤ bias then 1 else if k ≥ bias + 26 then 26 else k - bias
    if d < t then some (i, r) else punyInteger fuel bias i (w * (36 - t)) (k + 36) r

def insertAt (xs : List Char) (i : Nat) (c : Char) : List Char := xs.take i ++ c :: xs.drop i

def punyDecode : Nat → Nat → Nat → Nat → List Char → List Char → Option (List Char)
  | 0, _, _, _, _, _ => none
  | _ + 1, _, _, _, out, [] => some out
  | fuel + 1, n, i, bias, out, cs => do
    let (i', rest) ← punyInteger (cs.length + 1) bias i 1 36 cs
    let len := out.length + 1
    let bias := adapt (i' - i) len (i = 0)
    let n := n + i' / len
    let pos := i' % len
    if n < 0x80 ∨ (0xD800 ≤ n ∧ n ≤ 0xDFFF) ∨ n > 0x10FFFF then none
    else punyDecode fuel n (pos + 1) bias (insertAt out pos (Char.ofNat n)) rest

/-- Decode a Punycode label (the part after `xn--`): the basic code points before the last
`-`, then the encoded insertions. -/
def punycode (label : List Char) : Option (List Char) :=
  let delim := (label.reverse.findIdx? (· = '-')).map fun k => label.length - 1 - k
  let (basic, rest) := match delim with
    | some k => (label.take k, label.drop (k + 1))
    | none => ([], label)
  if basic.any (fun c => c.toNat ≥ 0x80) then none
  else punyDecode (rest.length + 1) 128 0 72 basic rest

def isForbiddenDomainChar (c : Char) : Bool :=
  c.toNat ≤ 0x20 ∨ c.toNat = 0x7F ∨ "%#/:<>?@[\\]^|".contains c ∨
    (0x80 ≤ c.toNat ∧ c.toNat < 0xA0)

/-- Whether one lower-cased label is acceptable. -/
def labelOk (label : String) : Bool :=
  if label.startsWith "xn--" then
    match punycode (label.drop 4).toString.toList with
    | some decoded =>
      !decoded.isEmpty && decoded.any (fun c => c.toNat ≥ 0x80) &&
        decoded.all fun c => !isForbiddenDomainChar c && !(c.isUpper)
    | none => false
  else true

/-- Percent-decode a host into characters; undecodable escapes stay as they are. -/
def percentDecode : List Char → List UInt8
  | '%' :: a :: b :: r =>
    match hexDigit? a, hexDigit? b with
    | some x, some y => UInt8.ofNat (16 * x + y) :: percentDecode r
    | _, _ => 0x25 :: percentDecode (a :: b :: r)
  | c :: r => (String.singleton c).toUTF8.toList ++ percentDecode r
  | [] => []

end TestDispatch.Url
