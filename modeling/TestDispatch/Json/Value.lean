import TestDispatch.Text.Utf8
/-! JSON documents as they are written, in a compact form and in a pretty form indented by
two spaces per level. Strings escape `"`, `\` and the control characters. -/
namespace TestDispatch.Json

/-- A JSON value to be written. -/
inductive Value
  | null
  | bool (b : Bool)
  | num (n : Nat)
  | str (s : String)
  | arr (items : List Value)
  | obj (fields : List (String × Value))
deriving Repr, Inhabited

def hexDigit (n : Nat) : Char := (Nat.toDigits 16 (n % 16)).headD '0'

/-- The escaped form of one character inside a string. -/
def escapeChar (c : Char) : String :=
  if c = '"' then "\\\""
  else if c = '\\' then "\\\\"
  else if c = '\n' then "\\n"
  else if c = '\r' then "\\r"
  else if c = '\t' then "\\t"
  else if c.toNat = 8 then "\\b"
  else if c.toNat = 12 then "\\f"
  else if c.toNat < 0x20 then "\\u00" ++ String.singleton (hexDigit (c.toNat / 16)) ++
    String.singleton (hexDigit c.toNat)
  else String.singleton c

def quote (s : String) : String := "\"" ++ String.join (s.toList.map escapeChar) ++ "\""

mutual

def Value.compact : Value → String
  | .null => "null"
  | .bool b => if b then "true" else "false"
  | .num n => toString n
  | .str s => quote s
  | .arr items => "[" ++ compactItems items ++ "]"
  | .obj fields => "\x7b" ++ compactFields fields ++ "\x7d"

def compactItems : List Value → String
  | [] => ""
  | [v] => v.compact
  | v :: vs => v.compact ++ "," ++ compactItems vs

def compactFields : List (String × Value) → String
  | [] => ""
  | [(k, v)] => quote k ++ ":" ++ v.compact
  | (k, v) :: kvs => quote k ++ ":" ++ v.compact ++ "," ++ compactFields kvs

end

def indent (level : Nat) : String := String.ofList (List.replicate (2 * level) ' ')

mutual

/-- The pretty text of a value whose first line is already indented to `level`. -/
def Value.pretty (level : Nat) : Value → String
  | .arr [] => "[]"
  | .obj [] => "\x7b\x7d"
  | .arr items => "[\n" ++ prettyItems (level + 1) items ++ "\n" ++ indent level ++ "]"
  | .obj fields => "\x7b\n" ++ prettyFields (level + 1) fields ++ "\n" ++ indent level ++ "\x7d"
  | v => v.compact

def prettyItems (level : Nat) : List Value → String
  | [] => ""
  | [v] => indent level ++ v.pretty level
  | v :: vs => indent level ++ v.pretty level ++ ",\n" ++ prettyItems level vs

def prettyFields (level : Nat) : List (String × Value) → String
  | [] => ""
  | [(k, v)] => indent level ++ quote k ++ ": " ++ v.pretty level
  | (k, v) :: kvs => indent level ++ quote k ++ ": " ++ v.pretty level ++ ",\n" ++
    prettyFields level kvs

end

def strings (xs : List String) : Value := .arr (xs.map .str)

end TestDispatch.Json
