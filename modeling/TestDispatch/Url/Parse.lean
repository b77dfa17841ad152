import TestDispatch.Text.Utf8
import TestDispatch.Url.Host
/-! Reading an absolute URL far enough to know its scheme and whether its authority is well
formed. -/
namespace TestDispatch.Url

def isSpecial (scheme : String) : Bool :=
  ["http", "https", "ws", "wss", "ftp", "file"].contains scheme

def isControlOrSpace (c : Char) : Bool := c.toNat ≤ 0x20

/-- Drop leading and trailing controls and spaces, and every tab and line break. -/
def clean (input : String) : List Char :=
  let cs := (input.toList.dropWhile isControlOrSpace).reverse.dropWhile isControlOrSpace |>.reverse
  cs.filter fun c => c ≠ '\t' ∧ c ≠ '\n' ∧ c ≠ '\r'

def isSchemeChar (c : Char) : Bool :=
  (c.isAlphanum ∧ c.toNat < 0x80) ∨ c = '+' ∨ c = '-' ∨ c = '.'

def scheme (cs : List Char) : Option (String × List Char) :=
  match cs with
  | c :: _ =>
    if c.isAlpha ∧ c.toNat < 0x80 then
      let (s, rest) := cs.span isSchemeChar
      match rest with
      | ':' :: r => some (String.ofList (s.map Char.toLower), r)
      | _ => none
    else none
  | [] => none

def endsAuthority (special : Bool) (c : Char) : Bool :=
  c = '/' ∨ c = '?' ∨ c = '#' ∨ (special ∧ c = '\\')

/-- A domain of a special scheme, after percent-decoding: its labels must be acceptable, it
must not be empty, and if it ends in a number it must be an IPv4 address. -/
def checkDomain (raw : String) : Except UrlError Unit :=
  match Text.Utf8.text? (percentDecode raw.toList) with
  | none => .error .invalidDomainName
  | some decoded =>
    let lower := decoded.map Char.toLower
    if lower.toList.any isForbiddenDomainChar then .error .invalidDomainName
    else if (lower.splitOn ".").any (fun l => !labelOk l) then .error .invalidDomainName
    else if lower.isEmpty then .error .emptyHost
    else if lower.toList.all (fun c => c.toNat < 0x80) ∧ endsInNumber lower then
      if isIpv4 lower then .ok () else .error .invalidIpv4
    else .ok ()

def checkBracketed (host : String) : Except UrlError Unit :=
  if host.endsWith "]" ∧ host.length ≥ 2 then
    if isIpv6 ((host.drop 1).dropEnd 1).toString then .ok () else .error .invalidIpv6
  else .error .invalidIpv6

def checkHost (host : String) : Except UrlError Unit :=
  if host.startsWith "[" then checkBracketed host else checkDomain host

def checkOpaqueHost (host : String) : Except UrlError Unit :=
  if host.startsWith "[" then checkBracketed host
  else if host.toList.any (fun c => "\x00\t\n\r #/:<>?@[\\]^|".toList.contains c) then .error .invalidDomainCharacter
  else .ok ()

/-- The host part: up to a `:` outside brackets or the end of the authority. -/
def hostSpan (special : Bool) : Bool → List Char → List Char × List Char
  | _, [] => ([], [])
  | inside, c :: r =>
    if (c = ':' ∧ !inside) ∨ endsAuthority special c then ([], c :: r)
    else
      let inside := if c = '[' then true else if c = ']' then false else inside
      let (h, rest) := hostSpan special inside r
      (c :: h, rest)

def checkPort : Nat → List Char → Except UrlError Unit
  | _, [] => .ok ()
  | n, c :: r =>
    if '0' ≤ c ∧ c ≤ '9' then
      let n := n * 10 + (c.toNat - 48)
      if n > 65535 then .error .invalidPort else checkPort n r
    else if c = '/' ∨ c = '\\' ∨ c = '?' ∨ c = '#' then .ok ()
    else .error .invalidPort

def lastAt (special : Bool) : Nat → Option Nat → List Char → Option Nat
  | _, found, [] => found
  | i, found, c :: r =>
    if endsAuthority special c then found
    else lastAt special (i + 1) (if c = '@' then some (i + 1) else found) r

/-- An authority of a non-file scheme. -/
def checkAuthority (special : Bool) (cs : List Char) : Except UrlError Unit :=
  let userEnd := lastAt special 0 none cs
  let emptyUser := userEnd = some 1
  let (hasUser, cs) : Bool × List Char := match userEnd with
    | some k => (decide (k > 1), cs.drop k)
    | none => (false, cs)
  let atDelimiter := match cs with
    | c :: _ => endsAuthority special c
    | [] => false
  if emptyUser && atDelimiter then .error .emptyHost
  else
    let (host, rest) := hostSpan special false cs
    let hostText := String.ofList host
    if host.isEmpty ∧ special then .error .emptyHost
    else do
      if special then checkHost hostText else checkOpaqueHost hostText
      if host.isEmpty && (rest.head? == some ':' || hasUser) then throw .emptyHost
      match rest with
      | ':' :: r => checkPort 0 r
      | _ => pure ()

def isDriveLetter (host : List Char) : Bool :=
  match host with
  | [a, b] => a.isAlpha ∧ a.toNat < 0x80 ∧ (b = ':' ∨ b = '|')
  | _ => false

/-- What follows `file:`. -/
def checkFile (cs : List Char) : Except UrlError Unit :=
  match cs with
  | a :: b :: r =>
    if (a = '/' ∨ a = '\\') ∧ (b = '/' ∨ b = '\\') then
      let (host, _) := r.span fun c => c ≠ '/' ∧ c ≠ '\\' ∧ c ≠ '?' ∧ c ≠ '#'
      if host.isEmpty ∨ isDriveLetter host then .ok ()
      else if String.ofList (host.map Char.toLower) = "localhost" then .ok ()
      else checkHost (String.ofList host)
    else .ok ()
  | _ => .ok ()

/-- Parse a URL far enough to check it, returning its scheme. -/
def parseScheme (input : String) : Except UrlError String :=
  match scheme (clean input) with
  | none => .error .relativeWithoutBase
  | some (s, rest) =>
    let result : Except UrlError Unit :=
      if s = "file" then checkFile rest
      else if isSpecial s then checkAuthority true (rest.dropWhile fun c => c = '/' ∨ c = '\\')
      else match rest with
        | '/' :: '/' :: r => checkAuthority false r
        | _ => .ok ()
    result.map fun _ => s

end TestDispatch.Url
