import TestDispatch.Shell.Syntax
/-! Reading the tokens of a script: words with their quoting and expansions, operators,
redirections, line breaks and comments. -/
namespace TestDispatch.Shell

/-- Where a run of word characters is being read. -/
inductive Context
  /-- An unquoted word, ended by a blank or an operator character. -/
  | bare
  | double
  /-- The word of a `${...}` expansion, ended by `}`; `inDouble` when the expansion is quoted. -/
  | brace (inDouble : Bool)
  /-- The body of an arithmetic expansion, ended by `))` outside parentheses. -/
  | arith
  /-- The body of a here-document, read to its end; quotes are literal there. -/
  | hereBody
deriving DecidableEq, Repr

def Context.quoted : Context → Bool
  | .bare => false
  | .double => true
  | .brace inDouble => inDouble
  | .arith => true
  | .hereBody => true

def isWordEnd (c : Char) : Bool :=
  c = ' ' ∨ c = '\t' ∨ c = '\n' ∨ c = ';' ∨ c = '&' ∨ c = '|' ∨ c = '(' ∨ c = ')' ∨
    c = '<' ∨ c = '>'

def isNameStart (c : Char) : Bool := (c.isAlpha ∧ c.toNat < 0x80) ∨ c = '_'

def isNameChar (c : Char) : Bool := isNameStart c ∨ c.isDigit

def isName (s : String) : Bool :=
  match s.toList with
  | c :: cs => isNameStart c && cs.all isNameChar
  | [] => false

def pushChar (acc : List Piece) (c : Char) (quoted : Bool) : List Piece :=
  match acc with
  | .text s q :: rest => if q = quoted then .text (s.push c) q :: rest else .text (String.singleton c) quoted :: acc
  | _ => .text (String.singleton c) quoted :: acc

def singleQuoted : List Char → Option (String × List Char)
  | [] => none
  | '\'' :: r => some ("", r)
  | c :: r => (singleQuoted r).map fun (s, rest) => (String.singleton c ++ s, rest)

def backquoted (inDouble : Bool) : List Char → Option (String × List Char)
  | [] => none
  | '`' :: r => some ("", r)
  | '\\' :: c :: r =>
    let kept := if c = '$' ∨ c = '`' ∨ c = '\\' ∨ (inDouble ∧ c = '"') then String.singleton c
      else String.ofList ['\\', c]
    (backquoted inDouble r).map fun (s, rest) => (kept ++ s, rest)
  | c :: r => (backquoted inDouble r).map fun (s, rest) => (String.singleton c ++ s, rest)

/-- The source of a `$(...)` command up to its closing parenthesis: parentheses nest, and
quoted text and escaped characters are passed over. -/
def parenthesized : Nat → Nat → List Char → Option (List Char × List Char)
  | 0, _, _ => none
  | _ + 1, _, [] => none
  | fuel + 1, depth, c :: r =>
    let more (taken : List Char) (rest : List Char) (depth : Nat) :=
      (parenthesized fuel depth rest).map fun (s, rest') => (taken ++ s, rest')
    match c with
    | ')' => if depth = 0 then some ([], r) else more [c] r (depth - 1)
    | '(' => more [c] r (depth + 1)
    | '\\' => match r with
      | d :: r' => more [c, d] r' depth
      | [] => none
    | '\'' =>
      let (body, rest) := r.span (· ≠ '\'')
      match rest with
      | q :: rest' => more (c :: body ++ [q]) rest' depth
      | [] => none
    | '"' =>
      match doubleSpan r with
      | some (body, rest') => more (c :: body) rest' depth
      | none => none
    | _ => more [c] r depth
where
  /-- The text of a double-quoted part through its closing quote. -/
  doubleSpan : List Char → Option (List Char × List Char)
    | [] => none
    | '"' :: r => some (['"'], r)
    | '\\' :: d :: r => (doubleSpan r).map fun (s, rest) => ('\\' :: d :: s, rest)
    | c :: r => (doubleSpan r).map fun (s, rest) => (c :: s, rest)

def paramName (cs : List Char) : Option (String × List Char) :=
  match cs with
  | c :: r =>
    if isNameStart c then
      let (n, rest) := r.span isNameChar
      some (String.ofList (c :: n), rest)
    else if c.isDigit ∨ "@*#?-$!".toList.contains c then some (String.singleton c, r)
    else none
  | [] => none

def bracedName (cs : List Char) : Option (String × List Char) :=
  match cs with
  | c :: r =>
    if c.isDigit then
      let (ds, rest) := r.span Char.isDigit
      some (String.ofList (c :: ds), rest)
    else paramName cs
  | [] => none

inductive LexError
  | unterminatedQuote
  | unterminatedBackquote
  | unterminatedCommand
  | missingBrace
  | missingArith
  | badSubstitution
deriving DecidableEq, Repr

def LexError.message : LexError → String
  | .unterminatedQuote => "Syntax error: Unterminated quoted string"
  | .unterminatedBackquote => "Syntax error: EOF in backquote substitution"
  | .unterminatedCommand => "Syntax error: end of file unexpected (expecting \")\")"
  | .missingBrace => "Syntax error: Missing '\x7d'"
  | .missingArith => "Syntax error: Missing '))'"
  | .badSubstitution => "Syntax error: Bad substitution"

mutual

/-- Read word pieces in a context, returning them in order with what follows. `depth` counts
open parentheses of an arithmetic body. -/
def pieces : Nat → Context → Nat → List Piece → List Char →
    Except LexError (List Piece × List Char)
  | 0, _, _, _, _ => .error .missingBrace
  | fuel + 1, ctx, depth, acc, cs =>
    let done := fun (rest : List Char) => Except.ok (acc.reverse, rest)
    match ctx, cs with
    | .bare, [] => done []
    | .hereBody, [] => done []
    | .double, [] => .error .unterminatedQuote
    | .brace _, [] => .error .missingBrace
    | .arith, [] => .error .missingArith
    | .bare, c :: r =>
      if isWordEnd c then done (c :: r) else step fuel ctx depth acc c r
    | .double, '"' :: r => done r
    | .brace _, '}' :: r => done r
    | .arith, ')' :: r =>
      if depth = 0 then
        match r with
        | ')' :: r' => done r'
        | _ => .error .missingArith
      else pieces fuel ctx (depth - 1) (pushChar acc ')' true) r
    | .arith, '(' :: r => pieces fuel ctx (depth + 1) (pushChar acc '(' true) r
    | _, c :: r => step fuel ctx depth acc c r

/-- Read one character (or the construct it starts) of a word, then continue. -/
def step : Nat → Context → Nat → List Piece → Char → List Char →
    Except LexError (List Piece × List Char)
  | 0, _, _, _, _, _ => .error .missingBrace
  | fuel + 1, ctx, depth, acc, c, r =>
    let inDouble := ctx.quoted
    let unquotedCtx := ctx = .bare ∨ ctx = .brace false
    if c = '\\' then
      match r with
      | '\n' :: r' => pieces fuel ctx depth acc r'
      | d :: r' =>
        if unquotedCtx then pieces fuel ctx depth (pushChar acc d true) r'
        else if d = '$' ∨ d = '`' ∨ (d = '"' ∧ ctx ≠ .hereBody) ∨ d = '\\' then
          pieces fuel ctx depth (pushChar acc d true) r'
        else pieces fuel ctx depth (pushChar acc '\\' true) r
      | [] => pieces fuel ctx depth (pushChar acc '\\' inDouble) []
    else if c = '\'' ∧ unquotedCtx then
      match singleQuoted r with
      | some (s, rest) => pieces fuel ctx depth (.text s true :: acc) rest
      | none => .error .unterminatedQuote
    else if c = '"' ∧ ctx ≠ .double ∧ ctx ≠ .hereBody then do
      let (inner, rest) ← pieces fuel .double 0 [] r
      -- an empty pair of quotes still marks the word as quoted
      let inner := if inner.isEmpty then [.text "" true] else inner
      pieces fuel ctx depth (inner.reverse ++ acc) rest
    else if c = '`' then
      match backquoted inDouble r with
      | some (src, rest) => pieces fuel ctx depth (.command src inDouble :: acc) rest
      | none => .error .unterminatedBackquote
    else if c = '$' then do
      let (p, rest) ← dollar fuel inDouble r
      match p with
      | some p => pieces fuel ctx depth (p :: acc) rest
      | none => pieces fuel ctx depth (pushChar acc '$' inDouble) rest
    else pieces fuel ctx depth (pushChar acc c inDouble) r

def dollar : Nat → Bool → List Char → Except LexError (Option Piece × List Char)
  | 0, _, _ => .error .missingBrace
  | fuel + 1, quoted, cs =>
    match cs with
    | '(' :: '(' :: r => do
      let (body, rest) ← pieces fuel .arith 0 [] r
      pure (some (.arith body quoted), rest)
    | '(' :: r =>
      match parenthesized (r.length + 1) 0 r with
      | some (src, rest) => .ok (some (.command (String.ofList src) quoted), rest)
      | none => .error .unterminatedCommand
    | '\x7b' :: r => braced fuel quoted r
    | _ =>
      match paramName cs with
      | some (n, rest) => .ok (some (.param n .plain quoted), rest)
      | none => .ok (none, cs)

def braced : Nat → Bool → List Char → Except LexError (Option Piece × List Char)
  | 0, _, _ => .error .missingBrace
  | fuel + 1, quoted, cs =>
    match cs with
    | '#' :: '\x7d' :: r => .ok (some (.param "#" .plain quoted), r)
    | '#' :: r =>
      match bracedName r with
      | some (n, '\x7d' :: rest) => .ok (some (.param n .length quoted), rest)
      | _ => bracedRest fuel quoted cs
    | _ => bracedRest fuel quoted cs

/-- The rest of a `${...}` expansion: a name, then the closing brace or an operator and its
word. -/
def bracedRest : Nat → Bool → List Char → Except LexError (Option Piece × List Char)
  | 0, _, _ => .error .missingBrace
  | fuel + 1, quoted, cs =>
    match bracedName cs with
    | none => .error .badSubstitution
    | some (n, r) =>
      let fallback (kind : Fallback) (colon : Bool) (r : List Char) := do
        let (w, rest) ← pieces fuel (.brace quoted) 0 [] r
        pure (some (Piece.param n (.fallback kind colon w) quoted), rest)
      let trim (suffix longest : Bool) (r : List Char) := do
        let (w, rest) ← pieces fuel (.brace quoted) 0 [] r
        pure (some (Piece.param n (.trim suffix longest w) quoted), rest)
      match r with
      | '\x7d' :: rest => .ok (some (.param n .plain quoted), rest)
      | ':' :: '-' :: r => fallback .useDefault true r
      | ':' :: '=' :: r => fallback .assign true r
      | ':' :: '+' :: r => fallback .alternative true r
      | ':' :: '?' :: r => fallback .required true r
      | '-' :: r => fallback .useDefault false r
      | '=' :: r => fallback .assign false r
      | '+' :: r => fallback .alternative false r
      | '?' :: r => fallback .required false r
      | '#' :: '#' :: r => trim false true r
      | '#' :: r => trim false false r
      | '%' :: '%' :: r => trim true true r
      | '%' :: r => trim true false r
      | [] => .error .missingBrace
      | _ => .error .badSubstitution

end

inductive RedirOp
  | write
  | append
  | clobber
  | read
  | readWrite
  | dupOut
  | dupIn
  | hereDoc
deriving DecidableEq, Repr

inductive Token
  | word (w : Word)
  | redirect (fd : Option Nat) (op : RedirOp)
  | op (o : String)
  | newline
  | eof

def redirOp (cs : List Char) : Option (RedirOp × List Char) :=
  match cs with
  | '>' :: '>' :: r => some (.append, r)
  | '>' :: '&' :: r => some (.dupOut, r)
  | '>' :: '|' :: r => some (.clobber, r)
  | '>' :: r => some (.write, r)
  | '<' :: '<' :: r => some (.hereDoc, r)
  | '<' :: '&' :: r => some (.dupIn, r)
  | '<' :: '>' :: r => some (.readWrite, r)
  | '<' :: r => some (.read, r)
  | _ => none

def skipGap : List Char → List Char
  | ' ' :: r | '\t' :: r => skipGap r
  | '\\' :: '\n' :: r => skipGap r
  | '#' :: r => r.dropWhile (· ≠ '\n')
  | cs => cs

def Word.digits? : Word → Option Nat
  | [.text s false] => if !s.isEmpty ∧ s.all Char.isDigit then some s.toNat! else none
  | _ => none

/-- The word of a here-document's body whose delimiter was not quoted: expansions are read,
a backslash escapes only a dollar sign, a backquote, a backslash or a line break, and quotes
are literal. -/
def hereWord (body : String) : Except LexError Word :=
  (pieces (2 * body.length + 2) .hereBody 0 [] body.toList).map (·.1)

/-- The next token and what follows it. -/
def token (cs : List Char) : Except LexError (Token × List Char) :=
  match skipGap cs with
  | [] => .ok (.eof, [])
  | '\n' :: r => .ok (.newline, r)
  | ';' :: ';' :: r => .ok (.op ";;", r)
  | ';' :: r => .ok (.op ";", r)
  | '&' :: '&' :: r => .ok (.op "&&", r)
  | '&' :: r => .ok (.op "&", r)
  | '|' :: '|' :: r => .ok (.op "||", r)
  | '|' :: r => .ok (.op "|", r)
  | '(' :: r => .ok (.op "(", r)
  | ')' :: r => .ok (.op ")", r)
  | cs' =>
    match redirOp cs' with
    | some (o, r) => .ok (.redirect none o, r)
    | none => do
      let (w, rest) ← pieces (2 * cs'.length + 2) .bare 0 [] cs'
      match Word.digits? w, redirOp rest with
      | some n, some (o, r) => pure (.redirect (some n) o, r)
      | _, _ => pure (.word w, rest)

end TestDispatch.Shell
