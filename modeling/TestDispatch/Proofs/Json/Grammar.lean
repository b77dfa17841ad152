/-! JSON texts that are objects of string values, as RFC 8259 writes them, and the map such an
object stands for: keys in increasing order, each with its last value. -/
namespace TestDispatch.Json

def isBlank (c : Char) : Bool := c = ' ' || c = '\t' || c = '\n' || c = '\r'

def Blank (w : List Char) : Prop := ∀ c ∈ w, isBlank c = true

def hexDigitValue (c : Char) : Option Nat :=
  if '0' ≤ c ∧ c ≤ '9' then some (c.toNat - '0'.toNat)
  else if 'a' ≤ c ∧ c ≤ 'f' then some (c.toNat - 'a'.toNat + 10)
  else if 'A' ≤ c ∧ c ≤ 'F' then some (c.toNat - 'A'.toNat + 10)
  else none

def hex4Value : List Char → Option Nat
  | [a, b, c, d] => do
    let a ← hexDigitValue a
    let b ← hexDigitValue b
    let c ← hexDigitValue c
    let d ← hexDigitValue d
    pure (((a * 16 + b) * 16 + c) * 16 + d)
  | _ => none

def shortEscape : Char → Option Char
  | '"' => some '"'
  | '\\' => some '\\'
  | '/' => some '/'
  | 'b' => some '\x08'
  | 'f' => some '\x0C'
  | 'n' => some '\n'
  | 'r' => some '\r'
  | 't' => some '\t'
  | _ => none

/-- One character of a string literal as written, and the character it stands for. -/
inductive LitChar : List Char → Char → Prop
  | plain {c : Char} : 0x20 ≤ c.toNat → c ≠ '"' → c ≠ '\\' → LitChar [c] c
  | short {e c : Char} : shortEscape e = some c → LitChar ['\\', e] c
  | unicode {ds : List Char} {c : Char} : hex4Value ds = some c.toNat →
      LitChar ('\\' :: 'u' :: ds) c
  | pair {hs ls : List Char} {hi lo : Nat} {c : Char} :
      hex4Value hs = some hi → 0xD800 ≤ hi → hi ≤ 0xDBFF →
      hex4Value ls = some lo → 0xDC00 ≤ lo → lo ≤ 0xDFFF →
      c.toNat = 0x10000 + (hi - 0xD800) * 0x400 + (lo - 0xDC00) →
      LitChar ('\\' :: 'u' :: (hs ++ '\\' :: 'u' :: ls)) c

/-- The characters of a string literal between its quotes, and what they stand for. -/
inductive LitBody : List Char → List Char → Prop
  | nil : LitBody [] []
  | cons {w ws : List Char} {c : Char} {cs : List Char} :
      LitChar w c → LitBody ws cs → LitBody (w ++ ws) (c :: cs)

/-- A string literal, quotes included, that stands for the text `s`. -/
def StringLit (lit : List Char) (s : String) : Prop :=
  ∃ body, lit = '"' :: (body ++ ['"']) ∧ LitBody body s.toList

def MemberText (m : List Char) (kv : String × String) : Prop :=
  ∃ k w₁ w₂ v, m = k ++ w₁ ++ ':' :: (w₂ ++ v) ∧ StringLit k kv.1 ∧ Blank w₁ ∧ Blank w₂ ∧
    StringLit v kv.2

inductive MoreMembers : List Char → List (String × String) → Prop
  | nil : MoreMembers [] []
  | cons {w₁ w₂ m rest : List Char} {kv : String × String} {kvs : List (String × String)} :
      Blank w₁ → Blank w₂ → MemberText m kv → MoreMembers rest kvs →
      MoreMembers (w₁ ++ ',' :: (w₂ ++ m ++ rest)) (kv :: kvs)

/-- What stands between the braces of an object, less white space at either end: nothing, or
members separated by commas. -/
def MembersText (inner : List Char) (kvs : List (String × String)) : Prop :=
  inner = [] ∧ kvs = [] ∨
    ∃ m kv rest kvs', inner = m ++ rest ∧ kvs = kv :: kvs' ∧ MemberText m kv ∧
      MoreMembers rest kvs'

/-- A JSON text that is an object whose values are all strings, with its members `kvs` in the
order written. -/
def ObjectText (cs : List Char) (kvs : List (String × String)) : Prop :=
  ∃ w₀ w₁ inner w₂ w₃, cs = w₀ ++ '{' :: (w₁ ++ inner ++ w₂ ++ '}' :: w₃) ∧
    Blank w₀ ∧ Blank w₁ ∧ Blank w₂ ∧ Blank w₃ ∧ MembersText inner kvs

/-- `v` is the value of the last member of `kvs` with the key `k`. -/
def LastValue (kvs : List (String × String)) (k v : String) : Prop :=
  ∃ pre post, kvs = pre ++ (k, v) :: post ∧ ∀ v', (k, v') ∉ post

/-- The map of the members `kvs`: its keys in increasing order, each once, with the value of
its last member. -/
def MapOf (kvs m : List (String × String)) : Prop :=
  m.Pairwise (·.1 < ·.1) ∧ ∀ k v, (k, v) ∈ m ↔ LastValue kvs k v

end TestDispatch.Json
