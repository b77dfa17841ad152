import TestDispatch.Shell.Lex
/-! Reading commands from tokens, one complete command at a time, with faults reported at their
line in the shell's own words. -/
namespace TestDispatch.Shell

/-- A position in a script: the text left, the line it is on, and the lines of
here-documents already taken out of the text, which count when the current line ends. -/
structure Src where
  rest : List Char
  line : Nat
  extra : Nat
deriving Repr

def Src.ofText (cs : List Char) (line : Nat) : Src := ⟨cs, line, 0⟩

def Src.moveTo (s : Src) (rest : List Char) : Src :=
  let passed := s.rest.take (s.rest.length - rest.length)
  let breaks := passed.count '\n'
  if breaks = 0 then ⟨rest, s.line, s.extra⟩ else ⟨rest, s.line + breaks + s.extra, 0⟩

structure SyntaxError where
  line : Nat
  message : String
deriving DecidableEq, Repr

def reservedWords : List String :=
  ["if", "then", "else", "elif", "fi", "do", "done", "case", "esac", "while", "until", "for",
    "\x7b", "\x7d", "!", "in"]

def Token.keyword? : Token → Option String
  | .word [.text s false] => if reservedWords.contains s then some s else none
  | _ => none

def Token.describe : Token → String
  | .eof => "end of file"
  | .newline => "newline"
  | .op o => "\"" ++ o ++ "\""
  | .redirect .. => "redirection"
  | t@(.word _) =>
    match t.keyword? with
    | some k => "\"" ++ k ++ "\""
    | none => "word"

def next (s : Src) : Except SyntaxError (Token × Src) :=
  match token s.rest with
  | .ok (t, rest) => .ok (t, s.moveTo rest)
  | .error e => .error ⟨s.line, e.message⟩

def unexpected (s : Src) (t : Token) (expecting : Option String) : SyntaxError :=
  match expecting with
  | some e => ⟨s.line, s!"Syntax error: {t.describe} unexpected (expecting \"{e}\")"⟩
  | none => ⟨s.line, s!"Syntax error: {t.describe} unexpected"⟩

def skipNewlines : Nat → Src → Except SyntaxError Src
  | 0, s => .ok s
  | fuel + 1, s => do
    let (t, s') ← next s
    match t with
    | .newline => skipNewlines fuel s'
    | _ => pure s

/-- Split an assignment word `NAME=value` into the name and the value's pieces. -/
def assignment? (w : Word) : Option (String × Word) :=
  match w with
  | .text s false :: rest =>
    match s.splitOn "=" with
    | name :: _ :: _ =>
      if isName name then
        let value := (s.drop (name.length + 1)).toString
        some (name, if value.isEmpty then rest else .text value false :: rest)
      else none
    | _ => none
  | _ => none

def isStop (stops : List String) : Token → Bool
  | .eof => true
  | .op o => stops.contains o
  | t => match t.keyword? with
    | some k => stops.contains k
    | none => false

def redirection (s : Src) (fd : Option Nat) (o : RedirOp) (target : Word) :
    Except SyntaxError Redirect :=
  let out := fd.getD 1
  let inp := fd.getD 0
  match o with
  | .write | .clobber => .ok (.write out target false)
  | .append => .ok (.write out target true)
  | .read | .readWrite => .ok (.read inp target)
  | .dupOut | .dupIn =>
    let n := if o = .dupOut then out else inp
    match target with
    | [.text "-" false] => .ok (.close n)
    | w => match Word.digits? w with
      | some m => .ok (.dup n m)
      | none => .error ⟨s.line, "Syntax error: Bad fd number"⟩
  | .hereDoc => .ok (.here inp target)

def hereDelimiter (w : Word) : String × Bool :=
  let text := String.join (w.map fun
    | .text s _ => s
    | .param n _ _ => "$" ++ n
    | _ => "")
  let quoted := w.any fun
    | .text _ q | .param _ _ q | .arith _ q | .command _ q => q
  (text, quoted)

def takeHereLines (delim : String) (strip : Bool) : Nat → List Char → List String × Nat × List Char
  | 0, cs => ([], 0, cs)
  | _ + 1, [] => ([], 0, [])
  | fuel + 1, cs =>
    let raw := cs.takeWhile (· ≠ '\n')
    let after := cs.drop (raw.length + 1)
    let line := String.ofList (if strip then raw.dropWhile (· = '\t') else raw)
    if line = delim then ([], 1, after)
    else
      let (ls, n, rest) := takeHereLines delim strip fuel after
      (line :: ls, n + 1, rest)

/-- A here-document announced at a position: its delimiter word is next, and its body is
taken from the lines after the current one. -/
def hereDocument (s : Src) (fd : Option Nat) : Except SyntaxError (Redirect × Src) := do
  let (strip, s) := match s.rest with
    | '-' :: r => (true, { s with rest := r })
    | _ => (false, s)
  let (t, s') ← next s
  match t with
  | .word w =>
    let (delim, quoted) := hereDelimiter w
    let current := s'.rest.takeWhile (· ≠ '\n')
    let below := s'.rest.drop (current.length + 1)
    let (lines, count, after) := takeHereLines delim strip (below.length + 1) below
    let text := String.join (lines.map (· ++ "\n"))
    let body ← if quoted then pure [Piece.text text true]
      else (hereWord text).mapError fun e => ⟨s'.line, e.message⟩
    let rest := if current.length = s'.rest.length then current else current ++ '\n' :: after
    pure (.here (fd.getD 0) body, ⟨rest, s'.line, s'.extra + count⟩)
  | t => throw (unexpected s' t none)

def redirectTarget (s : Src) (fd : Option Nat) (o : RedirOp) : Except SyntaxError (Redirect × Src) := do
  if o = .hereDoc then hereDocument s fd
  else
    let (t, s') ← next s
    match t with
    | .word w => pure (← redirection s' fd o w, s')
    | t => throw (unexpected s t none)

def trailingRedirects : Nat → Src → Except SyntaxError (List Redirect × Src)
  | 0, s => .ok ([], s)
  | fuel + 1, s => do
    let (t, s') ← next s
    match t with
    | .redirect fd o =>
      let (r, s'') ← redirectTarget s' fd o
      let (rs, s''') ← trailingRedirects fuel s''
      pure (r :: rs, s''')
    | _ => pure ([], s)

def expect (s : Src) (k : String) : Except SyntaxError Src := do
  let (t, s') ← next s
  let ok : Bool := match t with
    | .op o => o == k
    | _ => t.keyword? == some k
  if ok then pure s' else throw (unexpected s t (some k))

def wordList : Nat → Src → Except SyntaxError (List Word × Src)
  | 0, s => .ok ([], s)
  | fuel + 1, s => do
    let (t, s') ← next s
    match t with
    | .word w => let (ws, s'') ← wordList fuel s'; pure (w :: ws, s'')
    | .op ";" | .newline => pure ([], s')
    | t => throw (unexpected s t none)

def patterns : Nat → Src → Except SyntaxError (List Word × Src)
  | 0, s => .ok ([], s)
  | fuel + 1, s => do
    let (t, s') ← next s
    match t with
    | .word w =>
      let (t2, s'') ← next s'
      match t2 with
      | .op "|" => let (ps, s''') ← patterns fuel s''; pure (w :: ps, s''')
      | .op ")" => pure ([w], s'')
      | t2 => throw (unexpected s' t2 (some ")"))
    | t => throw (unexpected s t none)

mutual

/-- A list of and-or lists separated by `;`, `&` or line breaks, up to a token in `stops`
(not consumed). -/
def list : Nat → List String → Src → Except SyntaxError (List Clause × Src)
  | 0, _, s => .ok ([], s)
  | fuel + 1, stops, s => do
    let s ← skipNewlines (s.rest.length + 1) s
    let (t, _) ← next s
    if isStop stops t then pure ([], s)
    else
      let (c, s) ← andOr fuel s
      let (t, s') ← next s
      match t with
      | .op ";" | .op "&" | .newline =>
        let (cs, s'') ← list fuel stops s'
        pure (c :: cs, s'')
      | t =>
        if isStop stops t then pure ([c], s)
        else throw (unexpected s t none)

def body : Nat → List String → String → Src → Except SyntaxError (List Clause × Src)
  | 0, _, _, s => .ok ([], s)
  | fuel + 1, stops, expecting, s => do
    let (cs, s') ← list fuel stops s
    let (t, _) ← next s'
    match t with
    | .eof => throw (unexpected s' t (some expecting))
    | _ => if cs.isEmpty then throw (unexpected s' t none) else pure (cs, s')

def andOr : Nat → Src → Except SyntaxError (Clause × Src)
  | 0, s => .error ⟨s.line, "Syntax error: nesting too deep"⟩
  | fuel + 1, s => do
    let (p, s) ← pipe fuel s
    let (rest, s) ← andOrRest fuel s
    pure (.mk p rest, s)

def andOrRest : Nat → Src → Except SyntaxError (List (Bool × Pipe) × Src)
  | 0, s => .ok ([], s)
  | fuel + 1, s => do
    let (t, s') ← next s
    match t with
    | .op "&&" | .op "||" =>
      let s'' ← skipNewlines (s'.rest.length + 1) s'
      let (p, s''') ← pipe fuel s''
      let (rest, s4) ← andOrRest fuel s'''
      pure ((t matches .op "&&", p) :: rest, s4)
    | _ => pure ([], s)

def pipe : Nat → Src → Except SyntaxError (Pipe × Src)
  | 0, s => .error ⟨s.line, "Syntax error: nesting too deep"⟩
  | fuel + 1, s => do
    let (t, s') ← next s
    let (negated, s) := if t.keyword? = some "!" then (true, s') else (false, s)
    let (c, s) ← command fuel s
    let (cs, s) ← pipeRest fuel s
    pure (.mk negated (c :: cs), s)

def pipeRest : Nat → Src → Except SyntaxError (List Command × Src)
  | 0, s => .ok ([], s)
  | fuel + 1, s => do
    let (t, s') ← next s
    match t with
    | .op "|" =>
      let s'' ← skipNewlines (s'.rest.length + 1) s'
      let (c, s''') ← command fuel s''
      let (cs, s4) ← pipeRest fuel s'''
      pure (c :: cs, s4)
    | _ => pure ([], s)

/-- One command: a compound command with its redirections, a function definition, or a
simple command. -/
def command : Nat → Src → Except SyntaxError (Command × Src)
  | 0, s => .error ⟨s.line, "Syntax error: nesting too deep"⟩
  | fuel + 1, s => do
    let (t, s1) ← next s
    let withRedirects := fun (mk : List Redirect → Command) (s : Src) => do
      let (rs, s') ← trailingRedirects (s.rest.length + 1) s
      pure (mk rs, s')
    match t.keyword?, t with
    | some "if", _ => do
      let (arms, otherwise, s2) ← ifArms fuel s1
      withRedirects (.branch arms otherwise) s2
    | some "while", _ | some "until", _ => do
      let (cond, s2) ← body fuel ["do"] "do" s1
      let s3 ← expect s2 "do"
      let (b, s4) ← body fuel ["done"] "done" s3
      let s5 ← expect s4 "done"
      withRedirects (.loop (t.keyword? = some "until") cond b) s5
    | some "for", _ => do
      let (nt, s2) ← next s1
      match nt with
      | .word [.text name false] =>
        if !isName name then throw (unexpected s1 nt none)
        let s3 ← skipNewlines (s2.rest.length + 1) s2
        let (t3, s4) ← next s3
        let (items, s5) ← if t3.keyword? = some "in" then do
            let (ws, s5) ← wordList (s4.rest.length + 1) s4
            pure (some ws, s5)
          else match t3 with
            | .op ";" => pure (none, s4)
            | _ => pure (none, s3)
        let s6 ← skipNewlines (s5.rest.length + 1) s5
        let s7 ← expect s6 "do"
        let (b, s8) ← body fuel ["done"] "done" s7
        let s9 ← expect s8 "done"
        withRedirects (.each name items b) s9
      | nt => throw (unexpected s1 nt none)
    | some "case", _ => do
      let (nt, s2) ← next s1
      match nt with
      | .word subject =>
        let s3 ← skipNewlines (s2.rest.length + 1) s2
        let s4 ← expect s3 "in"
        let (arms, s5) ← caseArms fuel s4
        withRedirects (.choose subject arms) s5
      | nt => throw (unexpected s1 nt none)
    | some "\x7b", _ => do
      let (b, s2) ← body fuel ["\x7d"] "\x7d" s1
      let s3 ← expect s2 "\x7d"
      withRedirects (.group b) s3
    | none, .op "(" => do
      let (b, s2) ← body fuel [")"] ")" s1
      let s3 ← expect s2 ")"
      withRedirects (.subshell b) s3
    | none, .word w => do
      let (t2, s2) ← next s1
      match t2, w with
      | .op "(", [.text name false] =>
        let s3 ← expect s2 ")"
        let s4 ← skipNewlines (s3.rest.length + 1) s3
        let (c, s5) ← command fuel s4
        pure (.define name c, s5)
      | _, _ => simple fuel s.line [] [] [] s
    | none, .redirect .. => simple fuel s.line [] [] [] s
    | _, t => throw (unexpected s t none)

def simple : Nat → Nat → List (String × Word) → List Word → List Redirect → Src →
    Except SyntaxError (Command × Src)
  | 0, line, assigns, words, redirects, s =>
    .ok (.simple line assigns.reverse words.reverse redirects.reverse, s)
  | fuel + 1, line, assigns, words, redirects, s => do
    let (t, s') ← next s
    match t with
    | .word w =>
      match words, assignment? w with
      | [], some a => simple fuel line (a :: assigns) words redirects s'
      | _, _ => simple fuel line assigns (w :: words) redirects s'
    | .redirect fd o =>
      let (r, s'') ← redirectTarget s' fd o
      simple fuel line assigns words (r :: redirects) s''
    | t =>
      if assigns.isEmpty ∧ words.isEmpty ∧ redirects.isEmpty then throw (unexpected s t none)
      else pure (.simple line assigns.reverse words.reverse redirects.reverse, s)

def ifArms : Nat → Src → Except SyntaxError (List (List Clause × List Clause) × List Clause × Src)
  | 0, s => .error ⟨s.line, "Syntax error: nesting too deep"⟩
  | fuel + 1, s => do
    let (cond, s1) ← body fuel ["then"] "then" s
    let s2 ← expect s1 "then"
    let (b, s3) ← body fuel ["elif", "else", "fi"] "fi" s2
    let (t, s4) ← next s3
    match t.keyword? with
    | some "elif" =>
      let (arms, otherwise, s5) ← ifArms fuel s4
      pure ((cond, b) :: arms, otherwise, s5)
    | some "else" =>
      let (e, s5) ← body fuel ["fi"] "fi" s4
      let s6 ← expect s5 "fi"
      pure ([(cond, b)], e, s6)
    | _ =>
      let s5 ← expect s3 "fi"
      pure ([(cond, b)], [], s5)

def caseArms : Nat → Src → Except SyntaxError (List (List Word × List Clause) × Src)
  | 0, s => .error ⟨s.line, "Syntax error: nesting too deep"⟩
  | fuel + 1, s => do
    let s ← skipNewlines (s.rest.length + 1) s
    let (t, s1) ← next s
    if t.keyword? = some "esac" then pure ([], s1)
    else
      let s1 := match t with
        | .op "(" => s1
        | _ => s
      let (ps, s2) ← patterns (s1.rest.length + 1) s1
      let (b, s3) ← list fuel [";;", "esac"] s2
      let (t3, s4) ← next s3
      match t3 with
      | .op ";;" =>
        let (arms, s5) ← caseArms fuel s4
        pure ((ps, b) :: arms, s5)
      | _ =>
        let s5 ← expect s3 "esac"
        pure ([(ps, b)], s5)

end

/-- The next complete command: the and-or lists up to the end of a line, or `none` at the end
of the script. -/
def complete (s : Src) : Except SyntaxError (Option (List Clause) × Src) := do
  let fuel := 4 * s.rest.length + 8
  let s ← skipNewlines (s.rest.length + 1) s
  let (t, _) ← next s
  match t with
  | .eof => pure (none, s)
  | _ =>
    let (cs, s') ← line fuel s
    pure (some cs, s')
where
  /-- And-or lists separated by `;` or `&`, through the line break. -/
  line : Nat → Src → Except SyntaxError (List Clause × Src)
    | 0, s => .ok ([], s)
    | fuel + 1, s => do
      let (c, s1) ← andOr fuel s
      let (t, s2) ← next s1
      match t with
      | .newline | .eof => pure ([c], s2)
      | .op ";" | .op "&" =>
        let (t3, s3) ← next s2
        match t3 with
        | .newline | .eof => pure ([c], s3)
        | _ => let (cs, s4) ← line fuel s2; pure (c :: cs, s4)
      | t => throw (unexpected s1 t none)

/-- Every command of a script text, or the first fault. -/
def parseAll (text : String) : Except SyntaxError (List Clause) :=
  go (text.length + 1) (Src.ofText text.toList 1)
where
  /-- Read complete commands until the end. -/
  go : Nat → Src → Except SyntaxError (List Clause)
    | 0, _ => .ok []
    | fuel + 1, s => do
      match ← complete s with
      | (none, _) => pure []
      | (some cs, s') => pure (cs ++ (← go fuel s'))

end TestDispatch.Shell
