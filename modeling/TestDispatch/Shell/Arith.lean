import TestDispatch.Arithmetic
/-! Arithmetic expansion: signed 64-bit integers, variables read as integers, and the C
operators with C's precedence; results wrap to 64 bits. -/
namespace TestDispatch.Shell

open scoped TestDispatch.Arithmetic

inductive ArithError
  /-- The expression is malformed; the text says what was expected. -/
  | malformed (expecting : String)
  | divisionByZero
  /-- A variable holds text that is not a number. -/
  | illegalNumber (text : String)
deriving DecidableEq, Repr

def ArithError.message (e : ArithError) (expr : String) : String :=
  match e with
  | .malformed what => s!"arithmetic expression: {what}: \"{expr}\""
  | .divisionByZero => s!"arithmetic expression: division by zero: \"{expr}\""
  | .illegalNumber t => s!"Illegal number: {t}"

def wrap64 (v : Int) : Int :=
  let m := v % (2 ^ (64 : Nat) : Int)
  if m ≥ 2 ^ (63 : Nat) then m - 2 ^ (64 : Nat) else m

def digitValue (c : Char) : Option Nat :=
  if c.isDigit then some (c.toNat - 48)
  else if 'a' ≤ c ∧ c ≤ 'z' then some (c.toNat - 87)
  else if 'A' ≤ c ∧ c ≤ 'Z' then some (c.toNat - 55)
  else none

def digitsIn (base : Nat) : List Char → Nat × Nat × List Char
  | c :: r =>
    match digitValue c with
    | some d =>
      if d < base then
        let (k, v, rest) := digitsIn base r
        (k + 1, d * base ^ k + v, rest)
      else (0, 0, c :: r)
    | none => (0, 0, c :: r)
  | [] => (0, 0, [])

/-- An unsigned number with the base given by its prefix: its value and what follows, or
`none` when no digit starts it. -/
def prefixedNumber (cs : List Char) : Option (Nat × List Char) :=
  match cs with
  | '0' :: x :: r =>
    if x = 'x' ∨ x = 'X' then
      let (k, v, rest) := digitsIn 16 r
      if k = 0 then some (0, x :: r) else some (v, rest)
    else
      let (_, v, rest) := digitsIn 8 (x :: r)
      some (v, rest)
  | c :: _ =>
    if c.isDigit then
      let (_, v, rest) := digitsIn 10 cs
      some (v, rest)
    else none
  | [] => none

def isNumBlank (c : Char) : Bool := c = ' ' ∨ c = '\t' ∨ c = '\n' ∨ c = '\r' ∨ c = '\x0b' ∨ c = '\x0c'

/-- The integer value of a variable's text: blanks around an optionally signed number, or
empty; anything else is an illegal number. -/
def integerValue (text : String) : Except ArithError Int :=
  let cs := text.toList.dropWhile isNumBlank
  if cs.isEmpty then .ok 0
  else
    let (negative, body) := match cs with
      | '-' :: r => (true, r)
      | '+' :: r => (false, r)
      | _ => (false, cs)
    match prefixedNumber body with
    | some (v, rest) =>
      if rest.all isNumBlank then .ok (wrap64 (if negative then -(v : Int) else v))
      else .error (.illegalNumber text)
    | none => .error (.illegalNumber text)

inductive ArithToken
  | num (v : Int)
  | name (n : String)
  | op (o : String)
deriving DecidableEq, Repr

/-- The operators, longest first so that a longer one wins. -/
def arithOperators : List String :=
  ["<<=", ">>=", "<<", ">>", "<=", ">=", "==", "!=", "&&", "||", "*=", "/=", "%=", "+=", "-=",
    "&=", "^=", "|=", "+", "-", "*", "/", "%", "<", ">", "&", "^", "|", "!", "~", "?", ":",
    "=", "(", ")"]

def arithTokens : Nat → List Char → Except ArithError (List ArithToken)
  | 0, _ => .ok []
  | _ + 1, [] => .ok []
  | fuel + 1, c :: r =>
    if isNumBlank c then arithTokens fuel r
    else if c.isDigit then
      match prefixedNumber (c :: r) with
      | some (v, rest) => do
        pure (.num (wrap64 v) :: (← arithTokens fuel rest))
      | none => .error (.malformed "expecting primary")
    else if (c.isAlpha ∧ c.toNat < 0x80) ∨ c = '_' then
      let (n, rest) := r.span fun d => (d.isAlphanum ∧ d.toNat < 0x80) ∨ d = '_'
      do pure (.name (String.ofList (c :: n)) :: (← arithTokens fuel rest))
    else
      match arithOperators.find? fun o => (c :: r).take o.length = o.toList with
      | some o => do pure (.op o :: (← arithTokens fuel ((c :: r).drop o.length)))
      | none => .error (.malformed "expecting primary")

def binaryLevel : String → Option Nat
  | "||" => some 1 | "&&" => some 2 | "|" => some 3 | "^" => some 4 | "&" => some 5
  | "==" => some 6 | "!=" => some 6
  | "<" => some 7 | "<=" => some 7 | ">" => some 7 | ">=" => some 7
  | "<<" => some 8 | ">>" => some 8
  | "+" => some 9 | "-" => some 9
  | "*" => some 10 | "/" => some 10 | "%" => some 10
  | _ => none

/-- Shift left, wrapping to 64 bits; the amount is taken modulo 64. -/
def shiftLeft (a b : Int) : Int := wrap64 (a * 2 ^ (b % 64).toNat)

/-- Shift right, keeping the sign; the amount is taken modulo 64. -/
def shiftRight (a b : Int) : Int := a / 2 ^ (b % 64).toNat

def bitwise (f : Bool → Bool → Bool) (a b : Int) : Int :=
  let ua := (a % (2 ^ (64 : Nat) : Int)).toNat
  let ub := (b % (2 ^ (64 : Nat) : Int)).toNat
  let bits := (List.range 64).map fun i => f (ua.testBit i) (ub.testBit i)
  wrap64 ((bits.zipIdx.foldl (fun acc (bit, i) => if bit then acc + 2 ^ i else acc) 0 : Nat) : Int)

def applyBinary (o : String) (a b : Int) : Except ArithError Int :=
  match o with
  | "+" => .ok (wrap64 (a + b))
  | "-" => .ok (wrap64 (a - b))
  | "*" => .ok (wrap64 (a * b))
  | "/" => if b = 0 then .error .divisionByZero else .ok (wrap64 (a.tdiv b))
  | "%" => if b = 0 then .error .divisionByZero else .ok (wrap64 (a.tmod b))
  | "<<" => .ok (shiftLeft a b)
  | ">>" => .ok (shiftRight a b)
  | "<" => .ok (if a < b then 1 else 0)
  | "<=" => .ok (if a ≤ b then 1 else 0)
  | ">" => .ok (if a > b then 1 else 0)
  | ">=" => .ok (if a ≥ b then 1 else 0)
  | "==" => .ok (if a = b then 1 else 0)
  | "!=" => .ok (if a ≠ b then 1 else 0)
  | "&" => .ok (bitwise (· && ·) a b)
  | "^" => .ok (bitwise (· != ·) a b)
  | "|" => .ok (bitwise (· || ·) a b)
  | "&&" => .ok (if a ≠ 0 ∧ b ≠ 0 then 1 else 0)
  | "||" => .ok (if a ≠ 0 ∨ b ≠ 0 then 1 else 0)
  | _ => .error (.malformed "expecting primary")

abbrev ArithVars := List (String × String)

def ArithVars.value (vars : ArithVars) (n : String) : Except ArithError Int :=
  match vars.find? (·.1 = n) with
  | some (_, v) => integerValue v
  | none => .ok 0

def ArithVars.assign (vars : ArithVars) (n : String) (v : Int) : ArithVars :=
  (n, toString v) :: vars.filter (·.1 ≠ n)

abbrev ArithStep := Except ArithError (Int × List ArithToken × ArithVars)

mutual

/-- An assignment expression; `live` is false on a side that is skipped. -/
def assignExpr : Nat → Bool → List ArithToken → ArithVars → ArithStep
  | 0, _, _, _ => .error (.malformed "expecting primary")
  | fuel + 1, live, ts, vars =>
    match ts with
    | .name n :: .op o :: rest =>
      if o = "=" ∨ (o.endsWith "=" ∧ o.length ≥ 2 ∧ o ≠ "==" ∧ o ≠ "!=" ∧ o ≠ "<=" ∧ o ≠ ">=") then do
        let (rhs, rest', vars) ← assignExpr fuel live rest vars
        if !live then pure (rhs, rest', vars)
        else
          let v ← if o = "=" then pure rhs
            else do
              let cur ← vars.value n
              applyBinary (o.dropEnd 1).toString cur rhs
          pure (v, rest', vars.assign n v)
      else condExpr fuel live ts vars
    | _ => condExpr fuel live ts vars

def condExpr : Nat → Bool → List ArithToken → ArithVars → ArithStep
  | 0, _, _, _ => .error (.malformed "expecting primary")
  | fuel + 1, live, ts, vars => do
    let (c, rest, vars) ← binaryExpr fuel live 1 ts vars
    match rest with
    | .op "?" :: rest => do
      let (a, rest, vars) ← assignExpr fuel (live && c ≠ 0) rest vars
      match rest with
      | .op ":" :: rest => do
        let (b, rest, vars) ← condExpr fuel (live && c = 0) rest vars
        pure (if c ≠ 0 then a else b, rest, vars)
      | _ => throw (.malformed "expecting ':'")
    | _ => pure (c, rest, vars)

def binaryExpr : Nat → Bool → Nat → List ArithToken → ArithVars → ArithStep
  | 0, _, _, _, _ => .error (.malformed "expecting primary")
  | fuel + 1, live, level, ts, vars => do
    let (a, rest, vars) ← unaryExpr fuel live ts vars
    binaryTail fuel live level a rest vars

def binaryTail : Nat → Bool → Nat → Int → List ArithToken → ArithVars → ArithStep
  | 0, _, _, _, _, _ => .error (.malformed "expecting primary")
  | fuel + 1, live, level, a, ts, vars =>
    match ts with
    | .op o :: rest =>
      match binaryLevel o with
      | some l =>
        if l < level then pure (a, ts, vars)
        else do
          -- the right side of && and || is evaluated only when it decides the result
          let rightLive := if o = "&&" then live && a ≠ 0
            else if o = "||" then live && a = 0 else live
          let (b, rest, vars) ← binaryExpr fuel rightLive (l + 1) rest vars
          let v ← if rightLive ∨ (o ≠ "&&" ∧ o ≠ "||") then
              (if live then applyBinary o a b else pure 0)
            else pure (if o = "&&" then 0 else 1)
          binaryTail fuel live level v rest vars
      | none => pure (a, ts, vars)
    | _ => pure (a, ts, vars)

def unaryExpr : Nat → Bool → List ArithToken → ArithVars → ArithStep
  | 0, _, _, _ => .error (.malformed "expecting primary")
  | fuel + 1, live, ts, vars =>
    match ts with
    | .op "-" :: rest => do
      let (v, rest, vars) ← unaryExpr fuel live rest vars
      pure (wrap64 (-v), rest, vars)
    | .op "+" :: rest => unaryExpr fuel live rest vars
    | .op "!" :: rest => do
      let (v, rest, vars) ← unaryExpr fuel live rest vars
      pure (if v = 0 then 1 else 0, rest, vars)
    | .op "~" :: rest => do
      let (v, rest, vars) ← unaryExpr fuel live rest vars
      pure (wrap64 (-v - 1), rest, vars)
    | .num v :: rest => pure (v, rest, vars)
    | .name n :: rest => do
      let v ← if live then vars.value n else pure 0
      pure (v, rest, vars)
    | .op "(" :: rest => do
      let (v, rest, vars) ← assignExpr fuel live rest vars
      match rest with
      | .op ")" :: rest => pure (v, rest, vars)
      | _ => throw (.malformed "expecting ')'")
    | _ => throw (.malformed "expecting primary")

end

/-- Evaluate an expression text with the variables, giving its value and the variables after
its assignments. An empty expression is 0. -/
def evalArith (text : String) (vars : ArithVars) : Except ArithError (Int × ArithVars) := do
  let ts ← arithTokens (text.length + 1) text.toList
  if ts.isEmpty then return (0, vars)
  let (v, rest, vars) ← assignExpr (4 * ts.length + 8) true ts vars
  if rest.isEmpty then pure (v, vars) else throw (.malformed "expecting EOF")

end TestDispatch.Shell
