/-! Writing TOML strings, in the first of five forms that can hold the text. -/
namespace TestDispatch.Toml

/-- What decides the form of a string. -/
structure StringMetrics where
  maxSingleRun : Nat
  maxDoubleRun : Nat
  backslash : Bool
  newline : Bool
  control : Bool
deriving DecidableEq, Repr

def isEscapeControl (c : Char) : Bool := (c.toNat < 0x20 ∧ c ≠ '\t' ∧ c ≠ '\n') ∨ c.toNat = 0x7F

def maxRun (q : Char) : List Char → Nat → Nat → Nat
  | [], _, best => best
  | c :: r, cur, best =>
    if c = q then maxRun q r (cur + 1) (max best (cur + 1)) else maxRun q r 0 best

def metrics (s : String) : StringMetrics :=
  let cs := s.toList
  { maxSingleRun := maxRun '\'' cs 0 0, maxDoubleRun := maxRun '"' cs 0 0,
    backslash := cs.contains '\\', newline := cs.contains '\n', control := cs.any isEscapeControl }

def hex4 (n : Nat) : String :=
  let ds := Nat.toDigits 16 n |>.map Char.toUpper
  String.ofList (List.replicate (4 - ds.length) '0' ++ ds)

def escapeBasic (multiline : Bool) (c : Char) : String :=
  if c = '"' then "\\\""
  else if c = '\\' then "\\\\"
  else if c = '\n' then (if multiline then "\n" else "\\n")
  else if c = '\t' then "\\t"
  else if c = '\r' then "\\r"
  else if c.toNat = 8 then "\\b"
  else if c.toNat = 12 then "\\f"
  else if c.toNat < 0x20 ∨ c.toNat = 0x7F then "\\u" ++ hex4 c.toNat
  else String.singleton c

/-- The body of a multi-line basic string: a `"` is escaped only when it would make a run of
three, and the run starts again after it. -/
def escapeMultiline : List Char → Nat → String
  | [], _ => ""
  | c :: r, run =>
    if c = '"' then
      if run + 1 > 2 then "\\\"" ++ escapeMultiline r 0 else "\"" ++ escapeMultiline r (run + 1)
    else escapeBasic true c ++ escapeMultiline r 0

def escaped (multiline : Bool) (s : String) : String :=
  if multiline then escapeMultiline s.toList 0 else String.join (s.toList.map (escapeBasic false))

/-- The TOML text of a string value. -/
def stringLiteral (s : String) : String :=
  let m := metrics s
  let lead := if m.newline then "\n" else ""
  if !m.control && !m.backslash && m.maxDoubleRun = 0 && !m.newline then "\"" ++ s ++ "\""
  else if !m.control && m.maxSingleRun = 0 && !m.newline then "'" ++ s ++ "'"
  else if !m.control && !m.backslash && m.maxDoubleRun ≤ 2 then
    "\"\"\"" ++ lead ++ escaped true s ++ "\"\"\""
  else if !m.control && m.maxSingleRun ≤ 2 then "'''" ++ lead ++ s ++ "'''"
  else if m.newline then "\"\"\"" ++ lead ++ escaped true s ++ "\"\"\""
  else "\"" ++ escaped false s ++ "\""

end TestDispatch.Toml
