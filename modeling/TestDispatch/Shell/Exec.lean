import TestDispatch.Shell.Parse
import TestDispatch.Shell.Pattern
import TestDispatch.Shell.Arith
import TestDispatch.Shell.Image
import TestDispatch.Shell.Signal
/-! Running scripts one complete command at a time: expansion, field splitting, redirections,
built-ins, functions and programs. Evaluation is bounded by fuel, and running out of it counts
as running out of time. -/
namespace TestDispatch.Shell

open TestDispatch.Fs

/-- How control leaves a command. -/
inductive Flow
  | next
  | exit
  | brk (levels : Nat)
  | cont (levels : Nat)
  | ret
  | halt (h : Halt)
deriving DecidableEq, Repr

/-- A piece of an expanded word: text (quoted text is literal in patterns), or a boundary
between fields. -/
inductive Seg
  | chars (s : String) (quoted : Bool)
  | brk
deriving DecidableEq, Repr

def isIfsBlank (c : Char) : Bool := c = ' ' ∨ c = '\t' ∨ c = '\n'

/-- Split the value of an unquoted expansion at the separator characters. -/
def splitValue (ifs : String) (v : String) : List Seg :=
  let rec go : List Char → List Char → List Seg
    | [], cur => if cur.isEmpty then [] else [.chars (String.ofList cur.reverse) false]
    | c :: r, cur =>
      if ifs.toList.contains c then
        let pre := if cur.isEmpty then [] else [Seg.chars (String.ofList cur.reverse) false]
        if isIfsBlank c then pre ++ Seg.brk :: go r []
        else pre ++ Seg.chars "" false :: Seg.brk :: go r []
      else go r (c :: cur)
  go v.toList []

def assemble (segs : List Seg) : List String :=
  let rec go : List Seg → Option String → List String
    | [], cur => cur.toList
    | .chars s _ :: r, cur => go r (some (cur.getD "" ++ s))
    | .brk :: r, cur => cur.toList ++ go r none
  go segs none

def joinSegs (segs : List Seg) : String :=
  String.join (segs.map fun
    | .chars s _ => s
    | .brk => " ")

def patternOf (segs : List Seg) : List (Char × Bool) :=
  segs.flatMap fun
    | .chars s q => s.toList.map (·, q)
    | .brk => [(' ', true)]

def stripTrailingNewlines (s : String) : String :=
  String.ofList (s.toList.reverse.dropWhile (· = '\n')).reverse

namespace Proc

def ifs (p : Proc) : String := (p.var? "IFS").getD " \t\n"

def param? (p : Proc) (name : String) : Option String :=
  match name with
  | "#" => some (toString p.params.length)
  | "?" => some (toString p.status)
  | "$" => some (toString p.pid)
  | "!" => none
  | "-" => some (String.ofList p.options)
  | "0" => some p.arg0
  | "@" | "*" => if p.params.isEmpty then none else some (" ".intercalate p.params)
  | _ =>
    if name.all Char.isDigit then p.params[name.toNat! - 1]?
    else p.var? name

def searchPath (p : Proc) : String := (p.var? "PATH").getD defaultSearchPath

def builtinPrefix (p : Proc) (cmd : String) : String := s!"{p.arg0}: {p.line}: {cmd}: "

end Proc

def openMessage (creating : Bool) (e : IoError) : String :=
  match e with
  | .notFound => if creating then "Directory nonexistent" else "No such file"
  | e => e.description

/-- Special built-in commands: they run in the shell itself and their assignments stay. -/
def specialBuiltins : List String :=
  [":", ".", "break", "continue", "eval", "exec", "exit", "export", "readonly", "return", "set",
    "shift", "times", "trap", "unset"]

def regularBuiltins : List String :=
  ["echo", "printf", "test", "[", "true", "false", "cd", "pwd", "read", "local", "wait", "umask",
    "command", "type", "kill", "getopts", "alias", "unalias", "hash", "jobs", "fg", "bg", "ulimit"]

def countArg (s : String) : Option Nat :=
  if !s.isEmpty ∧ s.all Char.isDigit then some s.toNat! else none

/-- Parse the options of `sh`: whether `-c` was given, the option letters turned on, and the
arguments after the options; an unknown option is reported. -/
def shellOptions : List String → Except String (Bool × List Char × List String)
  | [] => .ok (false, [], [])
  | "--" :: rest => .ok (false, [], rest)
  | "-" :: rest => .ok (false, [], rest)
  | a :: rest =>
    if a.startsWith "-" ∨ a.startsWith "+" then
      let letters := (a.drop 1).toString.toList
      match letters.find? fun c => !"cefuxvnsaCbhmi".toList.contains c with
      | some bad => .error s!"Illegal option {a.front}{bad}"
      | none => (shellOptions rest).map fun (c, opts, args) =>
          (c || letters.contains 'c',
            (if a.startsWith "-" then letters.filter (· ≠ 'c') else []) ++ opts, args)
    else .ok (false, [], a :: rest)

def optionNames : List (String × Char) :=
  [("errexit", 'e'), ("noglob", 'f'), ("noexec", 'n'), ("nounset", 'u'), ("xtrace", 'x'),
   ("verbose", 'v'), ("allexport", 'a'), ("noclobber", 'C')]

def switchOption (opts : List Char) (c : Char) (on : Bool) : List Char :=
  let rest := opts.filter (· ≠ c)
  if on then rest ++ [c] else rest

def setArguments (opts : List Char) : List String → Except String (List Char × Option (List String))
  | [] => .ok (opts, none)
  | "--" :: rest => .ok (opts, some rest)
  | a :: rest =>
    if (a.startsWith "-" ∨ a.startsWith "+") ∧ a.length > 1 then
      let on := a.startsWith "-"
      let letters := (a.drop 1).toString.toList
      if letters = ['o'] then
        match rest with
        | name :: more =>
          match optionNames.lookup name with
          | some c => setArguments (switchOption opts c on) more
          | none => .error s!"Illegal option -o {name}"
        | [] => .ok (opts, none)
      else
        match letters.find? fun c => !"efnuxvaC".toList.contains c with
        | some bad => .error s!"Illegal option {a.front}{bad}"
        | none => setArguments (letters.foldl (fun o c => switchOption o c on) opts) rest
    else .ok (opts, some (a :: rest))

def killUsage : String :=
  "usage: kill [-s sigspec | -signum | -sigspec] [pid | job]... or\nkill -l [exitstatus]"

/-- The signal and the process numbers of a `kill` command, or what is wrong with them. A
first argument naming no signal is read as options, of which only `-s` and `-l` exist. -/
def killArguments : List String → Except String (Nat × List String)
  | [] => .error killUsage
  | a :: rest =>
    if a.startsWith "-" then
      match Signal.number? (a.drop 1).toString false with
      | some n => .ok (n, rest)
      | none =>
        if a = "-s" then
          match rest with
          | spec :: more =>
            match Signal.number? spec false with
            | some n => .ok (n, more)
            | none => .error s!"invalid signal number or name: {spec}"
          | [] => .error "No arg for -s option"
        else if a = "--" then .ok (Signal.term, rest)
        else .error s!"Illegal option -{(a.drop 1).toString.front}"
    else .ok (Signal.term, a :: rest)

def killTarget (s : String) : Option Nat :=
  let digits := if s.startsWith "-" then (s.drop 1).toString else s
  countArg digits

def quoteForShell (s : String) : String :=
  "'" ++ s.replace "'" "'\"'\"'" ++ "'"

def trapOrder (key : String) : Nat := (Signal.number? key true).getD 0

def Proc.makeLocal (p : Proc) (arg : String) : Proc :=
  let name := (arg.splitOn "=").headD arg
  let saves := p.localSaves.getD []
  let p := if saves.any (·.1 = name) then p
    else { p with localSaves := some (saves ++ [(name, p.var? name)]) }
  if arg.contains '=' then p.setVar name (arg.drop (name.length + 1)).toString else p

def Proc.restoreLocals (p : Proc) : Proc :=
  (p.localSaves.getD []).foldl (fun p (name, old) =>
    match old with
    | some v => p.setVar name v
    | none => p.unsetVar name) p

def stoppedWait : Nat := 1000000000000

def Proc.subshell (p : Proc) : Proc := { p with traps := p.traps.filter (·.2.isEmpty) }

def checkFailure (r : Proc × Flow) : Proc × Flow :=
  match r with
  | (p, .next) => if p.hasOption 'e' ∧ !p.tested ∧ p.status ≠ 0 then (p, .exit) else (p, .next)
  | r => r

def Proc.newProcess (p : Proc) (extra : List (String × String)) : Proc :=
  { p with vars := p.environment extra, exported := (p.environment extra).map (·.1),
           functions := [], status := 0, options := [], tested := false, traps := [],
           localSaves := none, pid := p.pid + 1, signal := none }

/-- The shell after a process it started ended: a halt goes on; a process ended by a signal
leaves the status 128 plus the signal's number. -/
def Proc.afterProcess (p child : Proc) (flow : Flow) : Proc × Flow :=
  let status := match child.signal with
    | some n => 128 + n
    | none => child.status
  let p := { p.adopt child with status := status }
  match flow with
  | .halt h => (p, .halt h)
  | _ => (p, .next)

def Proc.afterSubshell (p child : Proc) (flow : Flow) : Proc × Flow :=
  let p := { p.adopt child with status := child.status }
  match flow, child.signal with
  | .halt h, _ => (p, .halt h)
  | _, some n => ({ p with signal := some n }, .exit)
  | _, none => (p, .next)

mutual

/-- Run a script text from a position: one complete command at a time, stopping at a fault,
an exit or a halt. -/
def runText : Nat → Proc → Src → Proc × Flow
  | 0, p, _ => (p, .halt .timedOut)
  | fuel + 1, p, src =>
    match complete src with
    | .error e => (({ p with line := e.line }.complain e.message).exitWith 2, .exit)
    | .ok (none, _) => (p, .next)
    | .ok (some cs, rest) =>
      match runClauses fuel p cs with
      | (p, .next) => runText fuel p rest
      | (p, .brk _) | (p, .cont _) => runText fuel p rest
      | r => r

def runClauses : Nat → Proc → List Clause → Proc × Flow
  | 0, p, _ => (p, .halt .timedOut)
  | _ + 1, p, [] => (p, .next)
  | fuel + 1, p, c :: cs =>
    match runClause fuel p c with
    | (p, .next) => runClauses fuel p cs
    | r => r

/-- Run an and-or list: each further pipeline runs when the status calls for it. Every
pipeline but the last that runs is a condition. -/
def runClause : Nat → Proc → Clause → Proc × Flow
  | 0, p, _ => (p, .halt .timedOut)
  | fuel + 1, p, .mk first rest =>
    if rest.isEmpty then runLast fuel p first
    else
      let outer := p.tested
      match runPipe fuel { p with tested := true } first with
      | (p, .next) => runAndOr fuel { p with tested := outer } rest
      | (p, flow) => ({ p with tested := outer }, flow)

def runAndOr : Nat → Proc → List (Bool × Pipe) → Proc × Flow
  | 0, p, _ => (p, .halt .timedOut)
  | _ + 1, p, [] => (p, .next)
  | fuel + 1, p, (isAnd, pipe) :: rest =>
    if isAnd == (p.status == 0) then
      if rest.isEmpty then runLast fuel p pipe
      else
        let outer := p.tested
        match runPipe fuel { p with tested := true } pipe with
        | (p, .next) => runAndOr fuel { p with tested := outer } rest
        | (p, flow) => ({ p with tested := outer }, flow)
    else runAndOr fuel p rest

def runLast : Nat → Proc → Pipe → Proc × Flow
  | 0, p, _ => (p, .halt .timedOut)
  | fuel + 1, p, pipe =>
    match pipe with
    | .mk true _ => runPipe fuel p pipe
    | .mk false _ => checkFailure (runPipe fuel p pipe)

def runPipe : Nat → Proc → Pipe → Proc × Flow
  | 0, p, _ => (p, .halt .timedOut)
  | fuel + 1, p, .mk negated stages =>
    let outer := p.tested
    let p := { p with tested := outer || negated }
    let (p, flow) := match stages with
      | [c] => runCommand fuel p c
      | _ => runStages fuel p none stages
    let p := { p with tested := outer }
    if negated ∧ flow = .next then ({ p with status := if p.status = 0 then 1 else 0 }, flow)
    else (p, flow)

/-- The stages of a pipeline with more than one command: each runs in a copy of the shell,
reading what the stage before it wrote. -/
def runStages : Nat → Proc → Option (List UInt8) → List Command → Proc × Flow
  | 0, p, _, _ => (p, .halt .timedOut)
  | _ + 1, p, _, [] => (p, .next)
  | fuel + 1, p, input, c :: rest =>
    let child := match input with
      | some bytes => p.setFd 0 (.input bytes)
      | none => p
    let child := child.subshell
    if rest.isEmpty then
      let (child, flow) := runCommand fuel child c
      let (child, flow) := match flow with
        | .halt h => (child, Flow.halt h)
        | _ => leaveShell fuel child
      p.afterSubshell child flow
    else
      let saved := p.captured
      let child := { child.setFd 1 .capture with captured := [] }
      let (child, flow) := runCommand fuel child c
      let (child, flow) := match flow with
        | .halt h => (child, Flow.halt h)
        | _ => leaveShell fuel child
      let out := child.captured
      match p.afterSubshell { child with captured := saved } flow with
      | (p, .next) => runStages fuel p (some out) rest
      | r => r

def runCommand : Nat → Proc → Command → Proc × Flow
  | 0, p, _ => (p, .halt .timedOut)
  | fuel + 1, p, c =>
    match c with
    | .simple line assigns words redirects => runSimple fuel { p with line := line } assigns words redirects
    | .group body redirects =>
      withRedirects fuel p redirects fun p => runClauses fuel p body
    | .subshell body redirects =>
      withRedirects fuel p redirects fun p =>
        let (child, flow) := runClauses fuel p.subshell body
        let (child, flow) := match flow with
          | .halt h => (child, Flow.halt h)
          | _ => leaveShell fuel child
        p.afterSubshell child flow
    | .branch arms otherwise redirects =>
      withRedirects fuel p redirects fun p => runBranch fuel p arms otherwise
    | .loop untilTrue cond body redirects =>
      withRedirects fuel p redirects fun p => runLoop fuel { p with status := 0 } untilTrue cond body 0
    | .each name items body redirects =>
      withRedirects fuel p redirects fun p =>
        match items with
        | none => runEach fuel { p with status := 0 } name p.params body
        | some ws =>
          match expandWords fuel p ws with
          | (p, .next, values) => runEach fuel { p with status := 0 } name values body
          | (p, flow, _) => (p, flow)
    | .choose subject arms redirects =>
      withRedirects fuel p redirects fun p =>
        match expandText fuel p subject with
        | (p, .next, s) => runCase fuel { p with status := 0 } s arms
        | (p, flow, _) => (p, flow)
    | .define name body =>
      ({ p with functions := (name, body) :: p.functions.filter (·.1 ≠ name), status := 0 }, .next)

def runBranch : Nat → Proc → List (List Clause × List Clause) → List Clause → Proc × Flow
  | 0, p, _, _ => (p, .halt .timedOut)
  | fuel + 1, p, [], otherwise =>
    if otherwise.isEmpty then ({ p with status := 0 }, .next) else runClauses fuel p otherwise
  | fuel + 1, p, (cond, body) :: arms, otherwise =>
    let outer := p.tested
    match runClauses fuel { p with tested := true } cond with
    | (p, .next) =>
      let p := { p with tested := outer }
      if p.status = 0 then runClauses fuel p body else runBranch fuel p arms otherwise
    | (p, flow) => ({ p with tested := outer }, flow)

def runLoop : Nat → Proc → Bool → List Clause → List Clause → Nat → Proc × Flow
  | 0, p, _, _, _, _ => (p, .halt .timedOut)
  | fuel + 1, p, untilTrue, cond, body, last =>
    let outer := p.tested
    let (p, flow) := runClauses fuel { p with tested := true } cond
    let p := { p with tested := outer }
    match (p, flow) with
    | (p, .next) =>
      if (p.status = 0) = untilTrue then ({ p with status := last }, .next)
      else
        match runClauses fuel p body with
        | (p, .next) => runLoop fuel p untilTrue cond body p.status
        | (p, .cont n) => if n ≤ 1 then runLoop fuel p untilTrue cond body p.status else (p, .cont (n - 1))
        | (p, .brk n) => if n ≤ 1 then (p, .next) else (p, .brk (n - 1))
        | r => r
    | (p, .brk n) => if n ≤ 1 then (p, .next) else (p, .brk (n - 1))
    | r => r

def runEach : Nat → Proc → String → List String → List Clause → Proc × Flow
  | 0, p, _, _, _ => (p, .halt .timedOut)
  | _ + 1, p, _, [], _ => (p, .next)
  | fuel + 1, p, name, v :: vs, body =>
    match runClauses fuel (p.setVar name v) body with
    | (p, .next) => runEach fuel p name vs body
    | (p, .cont n) => if n ≤ 1 then runEach fuel p name vs body else (p, .cont (n - 1))
    | (p, .brk n) => if n ≤ 1 then (p, .next) else (p, .brk (n - 1))
    | r => r

def runCase : Nat → Proc → String → List (List Word × List Clause) → Proc × Flow
  | 0, p, _, _ => (p, .halt .timedOut)
  | _ + 1, p, _, [] => (p, .next)
  | fuel + 1, p, subject, (pats, body) :: arms =>
    match casePatterns fuel p subject pats with
    | (p, .next, true) => runClauses fuel p body
    | (p, .next, false) => runCase fuel p subject arms
    | (p, flow, _) => (p, flow)

def casePatterns : Nat → Proc → String → List Word → Proc × Flow × Bool
  | 0, p, _, _ => (p, .halt .timedOut, false)
  | _ + 1, p, _, [] => (p, .next, false)
  | fuel + 1, p, subject, w :: ws =>
    match expandSegs fuel p false w with
    | (p, .next, segs) =>
      if matchesText (patternOf segs) subject then (p, .next, true)
      else casePatterns fuel p subject ws
    | (p, flow, _) => (p, flow, false)

/-- Run `k` with redirections in place, then put the descriptors back. A redirection that
fails is reported and the command does not run. -/
def withRedirects : Nat → Proc → List Redirect → (Proc → Proc × Flow) → Proc × Flow
  | 0, p, _, _ => (p, .halt .timedOut)
  | fuel + 1, p, rs, k =>
    if rs.isEmpty then k p
    else
      let saved := p.fds
      match applyRedirects fuel p rs with
      | (p, .next, true) =>
        let (p, flow) := k p
        ({ p with fds := saved }, flow)
      | (p, .next, false) => ({ p with fds := saved, status := 2 }, .next)
      | (p, flow, _) => ({ p with fds := saved }, flow)

def applyRedirects : Nat → Proc → List Redirect → Proc × Flow × Bool
  | 0, p, _ => (p, .halt .timedOut, false)
  | _ + 1, p, [] => (p, .next, true)
  | fuel + 1, p, r :: rs =>
    let onward := fun (p : Proc) => applyRedirects fuel p rs
    match r with
    | .close fd => onward (p.closeFd fd)
    | .dup fd target =>
      match p.sink? target with
      | some s => onward (p.setFd fd s)
      | none => (p.complain s!"{target}: Bad file descriptor", .next, false)
    | .write fd w append =>
      match expandText fuel p w with
      | (p, .next, path) =>
        if path = "/dev/null" then onward (p.setFd fd .null)
        else if path = "/dev/stdout" ∨ path = "/dev/stderr" then
          match p.sink? (if path = "/dev/stdout" then 1 else 2) with
          | some s => onward (p.setFd fd s)
          | none => onward p
        else
          let existing := match p.tree.stat p.cwd path with
            | .ok (_, .file b _) => some b
            | _ => none
          let bytes := if append then existing.getD [] else []
          match p.tree.writeFile p.cwd path bytes with
          | .ok t =>
            match t.stat p.cwd path with
            | .ok (phys, _) => onward ({ p with tree := t }.setFd fd (.file phys))
            | .error e => (p.complain s!"cannot create {path}: {openMessage true e}", .next, false)
          | .error e => (p.complain s!"cannot create {path}: {openMessage true e}", .next, false)
      | (p, flow, _) => (p, flow, false)
    | .here fd body =>
      match expandText fuel p body with
      | (p, .next, text) => onward (p.setFd fd (.input (Text.Utf8.bytes text)))
      | (p, flow, _) => (p, flow, false)
    | .read fd w =>
      match expandText fuel p w with
      | (p, .next, path) =>
        if path = "/dev/null" then onward (p.setFd fd (.input []))
        else match p.tree.readBytes p.cwd path with
          | .ok bytes => onward (p.setFd fd (.input bytes))
          | .error e => (p.complain s!"cannot open {path}: {openMessage false e}", .next, false)
      | (p, flow, _) => (p, flow, false)

def runSimple : Nat → Proc → List (String × Word) → List Word → List Redirect → Proc × Flow
  | 0, p, _, _, _ => (p, .halt .timedOut)
  | fuel + 1, p, assigns, words, redirects =>
    match expandWords fuel { p with substituted := none } words with
    | (p, .next, []) =>
      -- only assignments and redirections: the status is that of the last command
      -- substitution, if any ran
      withRedirects fuel p redirects fun p =>
        match assignAll fuel p assigns with
        | (p, .next) => ({ p with status := p.substituted.getD 0 }, .next)
        | r => r
    | (p, .next, cmd :: args) =>
      if cmd.contains '/' then
        withRedirects fuel p redirects fun p =>
          match evalAssigns fuel p assigns with
          | (p, .next, extra) => runExternal fuel p cmd (cmd :: args) extra
          | (p, flow, _) => (p, flow)
      else if specialBuiltins.contains cmd then
        if cmd = "exec" ∧ args.isEmpty then
          -- the redirections of a bare exec stay in force
          match applyRedirects fuel p redirects with
          | (p, .next, true) => ({ p with status := 0 }, .next)
          | (p, .next, false) => ({ p with status := 2 }, .exit)
          | (p, flow, _) => (p, flow)
        else
          withRedirects fuel p redirects fun p =>
            match assignAll fuel p assigns with
            | (p, .next) => runSpecial fuel p cmd args
            | r => r
      else
        match p.functions.find? (·.1 = cmd) with
        | some (_, body) =>
          withRedirects fuel p redirects fun p =>
            match assignAll fuel p assigns with
            | (p, .next) =>
              let saved := p.params
              let outerLocals := p.localSaves
              let (p, flow) := runCommand fuel { p with params := args, localSaves := some [] } body
              let p := { p.restoreLocals with params := saved, localSaves := outerLocals }
              match flow with
              | .ret => (p, .next)
              | flow => (p, flow)
            | r => r
        | none =>
          if regularBuiltins.contains cmd then
            withRedirects fuel p redirects fun p =>
              match evalAssigns fuel p assigns with
              | (p, .next, _) => runRegular fuel p cmd args
              | (p, flow, _) => (p, flow)
          else
            withRedirects fuel p redirects fun p =>
              match evalAssigns fuel p assigns with
              | (p, .next, extra) => runExternal fuel p cmd (cmd :: args) extra
              | (p, flow, _) => (p, flow)
    | (p, flow, _) => (p, flow)

def assignAll : Nat → Proc → List (String × Word) → Proc × Flow
  | 0, p, _ => (p, .halt .timedOut)
  | _ + 1, p, [] => (p, .next)
  | fuel + 1, p, (n, w) :: rest =>
    match expandText fuel p w with
    | (p, .next, v) => assignAll fuel (p.setVar n v) rest
    | (p, flow, _) => (p, flow)

def evalAssigns : Nat → Proc → List (String × Word) → Proc × Flow × List (String × String)
  | 0, p, _ => (p, .halt .timedOut, [])
  | _ + 1, p, [] => (p, .next, [])
  | fuel + 1, p, (n, w) :: rest =>
    match expandText fuel p w with
    | (p, .next, v) =>
      match evalAssigns fuel p rest with
      | (p, .next, more) => (p, .next, (n, v) :: more)
      | r => r
    | (p, flow, _) => (p, flow, [])

def runSpecial : Nat → Proc → String → List String → Proc × Flow
  | 0, p, _, _ => (p, .halt .timedOut)
  | fuel + 1, p, cmd, args =>
    let fault := fun (p : Proc) (msg : String) => ((p.complain s!"{cmd}: {msg}").exitWith 2, Flow.exit)
    match cmd with
    | ":" | "times" | "readonly" => ({ p with status := 0 }, .next)
    | "trap" =>
      match args with
      | [] =>
        let p := (p.traps.mergeSort fun a b => trapOrder a.1 ≤ trapOrder b.1).foldl
          (fun p (k, a) => p.writeText 1 s!"trap -- {quoteForShell a} {k}\n") p
        ({ p with status := 0 }, .next)
      | first :: rest =>
        let (action, conds) :=
          if rest.isEmpty ∨ (countArg first).isSome then (none, args)
          else if first = "-" then (none, rest)
          else (some first, rest)
        let (p, failed) := conds.foldl (fun (p, failed) c =>
          match Signal.number? c true with
          | some n =>
            let key := Signal.trapKey n
            let others := p.traps.filter (·.1 ≠ key)
            ({ p with traps := match action with
              | some a => others ++ [(key, a)]
              | none => others }, failed)
          | none => (p.writeText 2 s!"trap: {c}: bad trap\n", true)) (p, false)
        (p.exitWith (if failed then 1 else 0), .next)
    | "exit" =>
      match args with
      | [] => (p, .exit)
      | a :: _ => match countArg a with
        | some n => (p.exitWith (n % 256), .exit)
        | none => fault p s!"Illegal number: {a}"
    | "return" =>
      match args with
      | [] => (p, .ret)
      | a :: _ => match countArg a with
        | some n => (p.exitWith (n % 256), .ret)
        | none => fault p s!"Illegal number: {a}"
    | "break" | "continue" =>
      let n := match args with
        | a :: _ => countArg a
        | [] => some 1
      match n with
      | some 0 | none => fault p ("Illegal number: " ++ args.headD "")
      | some n => ({ p with status := 0 }, if cmd = "break" then .brk n else .cont n)
    | "shift" =>
      let n := match args with
        | a :: _ => countArg a
        | [] => some 1
      match n with
      | none => fault p ("Illegal number: " ++ args.headD "")
      | some n =>
        if n > p.params.length then fault p "can't shift that many"
        else ({ p with params := p.params.drop n, status := 0 }, .next)
    | "set" =>
      match setArguments p.options args with
      | .error msg => fault p msg
      | .ok (opts, params) => ({ p with options := opts, params := params.getD p.params, status := 0 }, .next)
    | "export" =>
      let p := args.foldl (fun p a =>
        match a.splitOn "=" with
        | n :: _ :: _ => (p.setVar n (a.drop (n.length + 1)).toString).exportVar n
        | _ => p.exportVar a) p
      ({ p with status := 0 }, .next)
    | "unset" =>
      let names := args.filter fun a => a ≠ "-v" ∧ a ≠ "-f"
      let p := names.foldl (fun p n =>
        if args.contains "-f" then { p with functions := p.functions.filter (·.1 ≠ n) }
        else p.unsetVar n) p
      ({ p with status := 0 }, .next)
    | "eval" =>
      let text := " ".intercalate args
      runText fuel { p with status := 0 } (Src.ofText text.toList p.line)
    | "." =>
      match args with
      | [] => fault p "filename argument required"
      | f :: _ =>
        match p.tree.readBytes p.cwd f with
        | .ok bytes => runText fuel p (Src.ofText (Text.Utf8.lossy bytes).toList 1)
        | .error _ => fault p s!"cannot open {f}: No such file"
    | "exec" =>
      match args with
      | [] => ({ p with status := 0 }, .next)
      | c :: rest =>
        match runExternal fuel p c (c :: rest) [] with
        | (p, .halt h) => (p, .halt h)
        | (p, _) => (p, .exit)
    | _ => ({ p with status := 0 }, .next)

def runRegular : Nat → Proc → String → List String → Proc × Flow
  | 0, p, _, _ => (p, .halt .timedOut)
  | fuel + 1, p, cmd, args =>
    match cmd with
    | "echo" =>
      match p.write 1 (echoBytes args) with
      | (p, true) => (p.exitWith 0, .next)
      | (p, false) => ((p.complain "echo: I/O error").exitWith 1, .next)
    | "printf" => (runPrintf p (p.builtinPrefix "printf") args, .next)
    | "test" => (runTest p (p.builtinPrefix "test") false args, .next)
    | "[" => (runTest p (p.builtinPrefix "[") true args, .next)
    | "true" => (p.exitWith 0, .next)
    | "false" => (p.exitWith 1, .next)
    | "pwd" => ((p.writeText 1 (showPath p.cwd ++ "\n")).exitWith 0, .next)
    | "cd" =>
      let target := match args with
        | a :: _ => some a
        | [] => p.var? "HOME"
      match target with
      | none => (p.exitWith 0, .next)
      | some d =>
        match p.tree.stat p.cwd d with
        | .ok (phys, .dir) => ({ p with cwd := phys }.setVar "PWD" (showPath phys) |>.exitWith 0, .next)
        | _ => ((p.complain s!"cd: can't cd to {d}").exitWith 2, .next)
    | "read" =>
      let names := args.filter fun a => !a.startsWith "-"
      let (p, bytes) := p.readAll 0
      if bytes.isEmpty then
        (names.foldl (fun p n => p.setVar n "") p |>.exitWith 1, .next)
      else
        let line := Text.Utf8.lossy (bytes.takeWhile (· ≠ 10))
        let rest := bytes.drop ((bytes.takeWhile (· ≠ 10)).length + 1)
        let p := p.setFd 0 (.input rest)
        let fields := assemble (splitValue p.ifs line)
        let rec fill : List String → List String → Proc → Proc
          | [], _, p => p
          | [n], vs, p => p.setVar n (" ".intercalate vs)
          | n :: ns, v :: vs, p => fill ns vs (p.setVar n v)
          | n :: ns, [], p => fill ns [] (p.setVar n "")
        (fill names fields p |>.exitWith 0, .next)
    | "local" =>
      if p.localSaves.isNone then ((p.complain "local: not in a function").exitWith 2, .next)
      else (args.foldl Proc.makeLocal p |>.exitWith 0, .next)
    | "kill" =>
      match args with
      | ["-l"] =>
        ((p.writeText 1 ("0\n" ++ String.join (signalNames.map (· ++ "\n")))).exitWith 0, .next)
      | ["-l", a] =>
        let n := (countArg a).map fun n => if n > 128 then n - 128 else n
        match n.bind Signal.name? with
        | some name => ((p.writeText 1 (name ++ "\n")).exitWith 0, .next)
        | none => ((p.complain s!"kill: invalid signal number or exit status: {a}").exitWith 2, .next)
      | _ =>
        match killArguments args with
        | .error msg => ((p.complain s!"kill: {msg}").exitWith 2, .next)
        | .ok (_, []) => ((p.complain s!"kill: {killUsage}").exitWith 2, .next)
        | .ok (sig, targets) => killEach fuel p sig targets false
    | _ => (p.exitWith 0, .next)

/-- Run a program named by `cmd` (a path, or a name on the search path) with its arguments
(`argv` starts with the name it is called by) and extra environment. -/
def runExternal : Nat → Proc → String → List String → List (String × String) → Proc × Flow
  | 0, p, _, _, _ => (p, .halt .timedOut)
  | fuel + 1, p, cmd, argv, extra =>
    let found := if cmd.contains '/' then (locate p.tree p.cwd cmd).map (·, cmd)
      else findProgram p.tree p.cwd p.searchPath cmd
    let child := p.newProcess extra
    match found with
    | .ok (img, path) =>
      let (child, flow) := runImage fuel child img path argv
      p.afterProcess child flow
    | .error .execFormat =>
      -- a file the system cannot start is read as a script by a new shell
      match p.tree.readBytes p.cwd cmd with
      | .ok bytes =>
        let child := { child with arg0 := cmd, params := argv.tail }
        let (child, flow) := runScript fuel child (Text.Utf8.lossy bytes)
        p.afterProcess child flow
      | .error _ => ((p.complain s!"{cmd}: not found").exitWith 127, .next)
    | .error .permissionDenied => ((p.complain s!"{cmd}: Permission denied").exitWith 126, .next)
    | .error _ => ((p.complain s!"{cmd}: not found").exitWith 127, .next)

/-- Run a started image as a new process (the descriptors and world are shared with the
caller; the rest is the child's own). `path` is where it was found. -/
def runImage : Nat → Proc → Image → String → List String → Proc × Flow
  | 0, p, _, _, _ => (p, .halt .timedOut)
  | fuel + 1, p, img, path, argv =>
    match img with
    | .utility u => runProgram fuel p u (argv.headD path) argv.tail
    | .script interp arg =>
      runProgram fuel p interp (Utility.name interp) (arg.toList ++ path :: argv.tail)

def runProgram : Nat → Proc → Utility → String → List String → Proc × Flow
  | 0, p, _, _, _ => (p, .halt .timedOut)
  | fuel + 1, p, u, name, args =>
    match u with
    | .sh => runShell fuel p name args
    | .env =>
      let (assigns, rest) := args.span fun a => a.contains '=' ∧ !a.startsWith "-"
      let p := assigns.foldl (fun p a =>
        match a.splitOn "=" with
        | n :: _ => (p.setVar n (a.drop (n.length + 1)).toString).exportVar n
        | [] => p) p
      match rest with
      | [] =>
        let p := (p.environment []).foldl (fun p (n, v) => p.writeText 1 s!"{n}={v}\n") p
        (p.exitWith 0, .next)
      | c :: cargs =>
        match findProgram p.tree p.cwd p.searchPath c with
        | .ok (img, path) => runImage fuel p img path (c :: cargs)
        | .error e =>
          let code := if e = .notFound then 127 else 126
          ((p.writeText 2 s!"env: '{c}': {e.description}\n").exitWith code, .next)
    | u =>
      let (p, halt) := runUtility u p args
      match halt with
      | some h => (p, .halt h)
      | none => (p, .next)

def runShell : Nat → Proc → String → List String → Proc × Flow
  | 0, p, _, _ => (p, .halt .timedOut)
  | fuel + 1, p, name, args =>
    let p := { p with arg0 := name, line := 0, functions := [] }
    match shellOptions args with
    | .error msg => ((p.complain msg).exitWith 2, .next)
    | .ok (true, _, []) => ((p.complain "-c requires an argument").exitWith 2, .next)
    | .ok (true, opts, text :: rest) =>
      runScript fuel { p with arg0 := rest.headD name, params := rest.drop 1, options := opts } text
    | .ok (false, opts, file :: rest) =>
      match p.tree.readBytes p.cwd file with
      | .ok bytes =>
        runScript fuel { p with arg0 := file, params := rest, options := opts } (Text.Utf8.lossy bytes)
      | .error e => ((p.complain s!"cannot open {file}: {openMessage false e}").exitWith 2, .next)
    | .ok (false, opts, []) =>
      let (p, bytes) := p.readAll 0
      runScript fuel { p with options := opts } (Text.Utf8.lossy bytes)

def runScript : Nat → Proc → String → Proc × Flow
  | 0, p, _ => (p, .halt .timedOut)
  | fuel + 1, p, text =>
    match runText fuel p (Src.ofText text.toList 1) with
    | (p, .halt h) => (p, .halt h)
    | (p, _) => leaveShell fuel p

def leaveShell : Nat → Proc → Proc × Flow
  | 0, p => (p, .halt .timedOut)
  | fuel + 1, p =>
    match p.signal, p.traps.lookup "EXIT" with
    | none, some action =>
      let p := { p with traps := p.traps.filter (·.1 ≠ "EXIT") }
      let status := p.status
      match runText fuel p (Src.ofText action.toList p.line) with
      | (p, .halt h) => (p, .halt h)
      | (p, .exit) => (p, .next)
      | (p, _) => ({ p with status := status }, .next)
    | _, _ => (p, .next)

/-- A signal arriving at the shell: a trapped one runs its action (an empty action ignores
it) and leaves the status as it was; one that is not trapped has its default effect. -/
def deliver : Nat → Proc → Nat → Proc × Flow
  | 0, p, _ => (p, .halt .timedOut)
  | fuel + 1, p, n =>
    let trapped := if Signal.catchable n then p.traps.lookup (Signal.trapKey n) else none
    match trapped with
    | some action =>
      let status := p.status
      match runText fuel p (Src.ofText action.toList p.line) with
      | (p, .next) => ({ p with status := status }, .next)
      | r => r
    | none =>
      match Signal.action n with
      | .ignore => (p, .next)
      | .terminate => ({ p with signal := some n, status := 128 + n }, .exit)
      | .stop =>
        match p.wait stoppedWait with
        | (p, some h) => (p, .halt h)
        | (p, none) => (p, .next)

def killEach : Nat → Proc → Nat → List String → Bool → Proc × Flow
  | 0, p, _, _, _ => (p, .halt .timedOut)
  | _ + 1, p, _, [], failed => (p.exitWith (if failed then 1 else 0), .next)
  | fuel + 1, p, sig, target :: rest, failed =>
    match killTarget target with
    | none => ((p.complain s!"kill: Illegal number: {target}").exitWith 2, .next)
    | some n =>
      if n = p.pid ∨ n = 0 then
        if sig = 0 then killEach fuel p sig rest failed
        else
          match deliver fuel { p with status := 0 } sig with
          | (p, .next) => killEach fuel p sig rest failed
          | r => r
      else killEach fuel (p.complain "kill: No such process") sig rest true

def expandWords : Nat → Proc → List Word → Proc × Flow × List String
  | 0, p, _ => (p, .halt .timedOut, [])
  | _ + 1, p, [] => (p, .next, [])
  | fuel + 1, p, w :: ws =>
    match expandSegs fuel p true w with
    | (p, .next, segs) =>
      match expandWords fuel p ws with
      | (p, .next, more) => (p, .next, assemble segs ++ more)
      | r => r
    | (p, flow, _) => (p, flow, [])

def expandText : Nat → Proc → Word → Proc × Flow × String
  | 0, p, _ => (p, .halt .timedOut, "")
  | fuel + 1, p, w =>
    match expandSegs fuel p false w with
    | (p, flow, segs) => (p, flow, joinSegs segs)

def expandSegs : Nat → Proc → Bool → Word → Proc × Flow × List Seg
  | 0, p, _, _ => (p, .halt .timedOut, [])
  | fuel + 1, p, split, w =>
    let w := match w with
      | .text s false :: rest =>
        if s = "~" ∨ s.startsWith "~/" then
          match p.var? "HOME" with
          | some home => .text home true :: .text (s.drop 1).toString false :: rest
          | none => w
        else w
      | _ => w
    expandPieces fuel p split w

def expandPieces : Nat → Proc → Bool → List Piece → Proc × Flow × List Seg
  | 0, p, _, _ => (p, .halt .timedOut, [])
  | _ + 1, p, _, [] => (p, .next, [])
  | fuel + 1, p, split, x :: xs =>
    match expandPiece fuel p split x with
    | (p, .next, segs) =>
      match expandPieces fuel p split xs with
      | (p, .next, more) => (p, .next, segs ++ more)
      | r => r
    | r => r

def expandPiece : Nat → Proc → Bool → Piece → Proc × Flow × List Seg
  | 0, p, _, _ => (p, .halt .timedOut, [])
  | fuel + 1, p, split, x =>
    let valueSegs := fun (v : String) (quoted : Bool) =>
      if quoted then [Seg.chars v true]
      else if split then splitValue p.ifs v else [Seg.chars v false]
    match x with
    | .text s q => (p, .next, [.chars s q])
    | .param name form q => expandParam fuel p split name form q
    | .arith body q =>
      match expandPieces fuel p false body with
      | (p, .next, segs) =>
        let text := joinSegs segs
        match evalArith text p.vars with
        | .ok (v, vars) => ({ p with vars := vars }, .next, valueSegs (toString v) q)
        | .error e => ((p.complain (e.message text)).exitWith 2, .exit, [])
      | r => r
    | .command src q =>
      let saved := p.captured
      let child := { (p.setFd 1 .capture).subshell with captured := [], status := 0, tested := false }
      let (child, flow) := runText fuel child (Src.ofText src.toList p.line)
      let (child, flow) := match flow with
        | .halt h => (child, Flow.halt h)
        | _ => leaveShell fuel child
      let out := stripTrailingNewlines (Text.Utf8.lossy child.captured)
      -- the status stays that of the last command; the substitution's is kept beside it
      match p.afterSubshell { child with captured := saved } flow with
      | (after, .next) =>
        ({ after with status := p.status, substituted := some child.status }, .next, valueSegs out q)
      | (p, flow) => (p, flow, [])

def expandParam : Nat → Proc → Bool → String → ParamForm → Bool → Proc × Flow × List Seg
  | 0, p, _, _, _, _ => (p, .halt .timedOut, [])
  | fuel + 1, p, split, name, form, q =>
    let valueSegs := fun (v : String) =>
      if q then [Seg.chars v true]
      else if split then splitValue p.ifs v else [Seg.chars v false]
    let plain := fun (p : Proc) =>
      if name = "@" ∧ q then
        (p, Flow.next, ((p.params.map fun v => [Seg.chars v true]).intersperse [.brk]).flatten)
      else if (name = "@" ∨ name = "*") ∧ !q ∧ split then
        (p, .next, ((p.params.map valueSegs).intersperse [.brk]).flatten)
      else if name = "*" ∧ q then
        let sep := (p.ifs.toList.head?).map String.singleton |>.getD ""
        (p, .next, [.chars (sep.intercalate p.params) true])
      else (p, .next, valueSegs ((p.param? name).getD ""))
    let resplit := fun (segs : List Seg) =>
      if q ∨ !split then segs
      else segs.flatMap fun
        | .chars s false => splitValue p.ifs s
        | s => [s]
    -- with the option `u` an unset parameter is an error, except where a word stands in
    let unset := p.hasOption 'u' ∧ (p.param? name).isNone ∧ name ≠ "@" ∧ name ≠ "*"
    let unsetError := ((p.complain s!"{name}: parameter not set").exitWith 2, Flow.exit, ([] : List Seg))
    match form with
    | .plain => if unset then unsetError else plain p
    | .length =>
      if unset then unsetError
      else (p, .next, [.chars (toString ((p.param? name).getD "").length) q])
    | .fallback kind colon word =>
      let value := p.param? name
      let isSet := match value with
        | some v => !colon || !v.isEmpty
        | none => false
      match kind with
      | .useDefault =>
        if isSet then plain p
        else match expandPieces fuel p false word with
          | (p, .next, segs) => (p, .next, resplit segs)
          | r => r
      | .alternative =>
        if !isSet then (p, .next, [])
        else match expandPieces fuel p false word with
          | (p, .next, segs) => (p, .next, resplit segs)
          | r => r
      | .assign =>
        if isSet then plain p
        else match expandPieces fuel p false word with
          | (p, .next, segs) =>
            let v := joinSegs segs
            let p := p.setVar name v
            (p, .next, valueSegs v)
          | r => r
      | .required =>
        if isSet then plain p
        else match expandPieces fuel p false word with
          | (p, .next, segs) =>
            let msg := if segs.isEmpty then "parameter not set" else joinSegs segs
            ((p.complain s!"{name}: {msg}").exitWith 2, .exit, [])
          | r => r
    | .trim suffix longest word =>
      if unset then unsetError else
      match expandPieces fuel p false word with
      | (p, .next, segs) =>
        let v := (p.param? name).getD ""
        (p, .next, valueSegs (trimBy (patternOf segs) suffix longest v))
      | r => r

end

end TestDispatch.Shell
