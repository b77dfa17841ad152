import TestDispatch.Shell.Process
/-! The `test` and `[` commands: string, integer and file tests combined with `!`, `-a`, `-o` and
parentheses, read by the POSIX rules up to four arguments. -/
namespace TestDispatch.Shell

open TestDispatch.Fs

def unaryOps : List String :=
  ["-n", "-z", "-e", "-f", "-d", "-r", "-w", "-x", "-s", "-h", "-L", "-p", "-b", "-c", "-S", "-t",
    "-g", "-u", "-k", "-O", "-G"]

def binaryOps : List String :=
  ["=", "!=", "<", ">", "-eq", "-ne", "-lt", "-le", "-gt", "-ge", "-nt", "-ot", "-ef", "=="]

/-- An integer operand: blanks, an optional sign and decimal digits, then blanks. -/
def testInteger (s : String) : Except String Int :=
  let blank := fun c => c = ' ' ∨ c = '\t' ∨ c = '\n' ∨ c = '\r' ∨ c = '\x0b' ∨ c = '\x0c'
  let cs := s.toList.dropWhile blank
  let (negative, body) := match cs with
    | '-' :: r => (true, r)
    | '+' :: r => (false, r)
    | _ => (false, cs)
  let (ds, rest) := body.span Char.isDigit
  if ds.isEmpty ∨ !(rest.all blank) then .error s!"Illegal number: {s}"
  else
    let v : Int := ds.foldl (fun n c => 10 * n + (c.toNat - 48)) 0
    .ok (if negative then -v else v)

def unaryTest (p : Proc) (op arg : String) : Bool :=
  let entry := match p.tree.stat p.cwd arg with
    | .ok (_, e) => some e
    | .error _ => none
  let link := match p.tree.lstat p.cwd arg with
    | .ok (_, .symlink _) => true
    | _ => false
  match op with
  | "-n" => !arg.isEmpty
  | "-z" => arg.isEmpty
  | "-e" => entry.isSome
  | "-f" => (entry matches some (.file ..))
  | "-d" => (entry matches some .dir)
  | "-r" | "-w" => entry.isSome
  | "-x" => match entry with
    | some (.file _ mode) => mode % 512 / 64 % 2 = 1 ∨ mode % 64 / 8 % 2 = 1 ∨ mode % 8 % 2 = 1
    | some .dir => true
    | _ => false
  | "-s" => match entry with
    | some (.file b _) => !b.isEmpty
    | some .dir => true
    | _ => false
  | "-h" | "-L" => link
  | _ => false

def binaryTest (a op b : String) : Except String Bool :=
  match op with
  | "=" | "==" => .ok (a = b)
  | "!=" => .ok (a ≠ b)
  | "<" => .ok (decide (a < b))
  | ">" => .ok (decide (b < a))
  | "-eq" | "-ne" | "-lt" | "-le" | "-gt" | "-ge" => do
    let x ← testInteger a
    let y ← testInteger b
    pure <| match op with
      | "-eq" => x = y
      | "-ne" => x ≠ y
      | "-lt" => x < y
      | "-le" => x ≤ y
      | "-gt" => x > y
      | _ => x ≥ y
  | _ => .ok false

mutual

def orExpr : Nat → Proc → List String → Except String (Bool × List String)
  | 0, _, _ => .error "expression too long"
  | fuel + 1, p, args => do
    let (a, rest) ← andExpr fuel p args
    match rest with
    | "-o" :: rest' => do
      let (b, rest'') ← orExpr fuel p rest'
      pure (a || b, rest'')
    | _ => pure (a, rest)

def andExpr : Nat → Proc → List String → Except String (Bool × List String)
  | 0, _, _ => .error "expression too long"
  | fuel + 1, p, args => do
    let (a, rest) ← notExpr fuel p args
    match rest with
    | "-a" :: rest' => do
      let (b, rest'') ← andExpr fuel p rest'
      pure (a && b, rest'')
    | _ => pure (a, rest)

def notExpr : Nat → Proc → List String → Except String (Bool × List String)
  | 0, _, _ => .error "expression too long"
  | fuel + 1, p, args =>
    match args with
    | "!" :: rest => do
      let (a, rest') ← notExpr fuel p rest
      pure (!a, rest')
    | _ => primary fuel p args

/-- A primary: a parenthesised expression, a unary or binary test, or a string. -/
def primary : Nat → Proc → List String → Except String (Bool × List String)
  | 0, _, _ => .error "expression too long"
  | fuel + 1, p, args =>
    match args with
    | [] => .error "argument expected"
    | "(" :: rest => do
      let (a, rest') ← orExpr fuel p rest
      match rest' with
      | ")" :: rest'' => pure (a, rest'')
      | _ => throw "closing paren expected"
    | a :: op :: b :: rest =>
      if binaryOps.contains op then do pure (← binaryTest a op b, rest)
      else if unaryOps.contains a then pure (unaryTest p a op, b :: rest)
      else pure (!a.isEmpty, op :: b :: rest)
    | [a, b] =>
      if unaryOps.contains a then pure (unaryTest p a b, [])
      else pure (!a.isEmpty, [b])
    | [a] => pure (!a.isEmpty, [])

end

/-- Evaluate the arguments of `test`: `true` when the expression holds. -/
def evalTest (p : Proc) (args : List String) : Except String Bool :=
  let general := fun (args : List String) => do
    let (v, rest) ← orExpr (2 * args.length + 4) p args
    match rest with
    | [] => pure v
    | r :: _ => throw s!"{r}: unexpected operator"
  let two := fun (a b : String) =>
    if a = "!" then Except.ok b.isEmpty
    else if unaryOps.contains a then .ok (unaryTest p a b)
    else .error s!"{a}: unexpected operator"
  let three := fun (a b c : String) =>
    if binaryOps.contains b then binaryTest a b c
    else if a = "!" then (two b c).map (!·)
    else if a = "(" ∧ c = ")" then .ok (!b.isEmpty)
    else general [a, b, c]
  match args with
  | [] => .ok false
  | [a] => .ok (!a.isEmpty)
  | [a, b] => two a b
  | [a, b, c] => three a b c
  | [a, b, c, d] =>
    if a = "!" then (three b c d).map (!·)
    else if a = "(" ∧ d = ")" then two b c
    else general args
  | _ => general args

end TestDispatch.Shell
