import TestDispatch.Cli.Grammar
import TestDispatch.Arithmetic
/-! Reading a command line into a request, left to right, reporting the first fault. Long
options take a value after `=` or in the next argument, short options may be grouped, and an
argument that starts with a dash is never a value. -/
namespace TestDispatch.Cli

open scoped TestDispatch.Arithmetic

structure TestOptions where
  path : String
  listModules : Bool
  modules : List String
  excludeModules : List String
  includePatterns : List String
  excludePatterns : List String
  leakTemp : Bool
  dryRun : Bool
deriving DecidableEq, Repr

structure ConfigOptions where
  generate : Bool
  write : Bool
  force : Bool
deriving DecidableEq, Repr

inductive Command
  | test (o : TestOptions)
  | config (o : ConfigOptions)
  | completions (shell : ShellKind) (output : Option String)
deriving DecidableEq, Repr

structure Invocation where
  verbose : Bool
  quiet : Bool
  configPath : Option String
  directory : Option String
  command : Command
deriving DecidableEq, Repr

/-- Why a command line is refused. -/
inductive UsageError
  /-- An argument that no option or position takes; the tip is offered for a dash argument
  of a command with a positional argument. -/
  | unexpectedArgument (arg usage : String) (tip : Bool)
  | unrecognizedCommand (name : String)
  | missingCommand
  | missingValue (arg : String)
  | repeated (arg usage : String)
  | unexpectedValue (value arg usage : String)
  | invalidValue (value arg : String) (choices : List String)
  | missingArguments (args : List String) (usage : String)
deriving DecidableEq, Repr

def moreInformation : String := "For more information, try '--help'.\n"

def UsageError.text : UsageError → String
  | .unexpectedArgument arg usage tip =>
    "error: unexpected argument '" ++ arg ++ "' found\n\n" ++
      (if tip then "  tip: to pass '" ++ arg ++ "' as a value, use '-- " ++ arg ++ "'\n\n" else "") ++
      "Usage: " ++ usage ++ "\n\n" ++ moreInformation
  | .unrecognizedCommand name =>
    "error: unrecognized subcommand '" ++ name ++ "'\n\nUsage: " ++ programUsage ++ "\n\n" ++
      moreInformation
  | .missingCommand =>
    "error: '" ++ programName ++ "' requires a subcommand but one was not provided\n" ++
      "  [subcommands: " ++ ", ".intercalate (commands.map (·.name) ++ ["help"]) ++ "]\n\n" ++
      "Usage: " ++ programUsage ++ "\n\n" ++ moreInformation
  | .missingValue arg =>
    "error: a value is required for '" ++ arg ++ "' but none was supplied\n\n" ++ moreInformation
  | .repeated arg usage =>
    "error: the argument '" ++ arg ++ "' cannot be used multiple times\n\nUsage: " ++ usage ++
      "\n\n" ++ moreInformation
  | .unexpectedValue value arg usage =>
    "error: unexpected value '" ++ value ++ "' for '" ++ arg ++ "' found; no more were expected\n\n" ++
      "Usage: " ++ usage ++ "\n\n" ++ moreInformation
  | .invalidValue value arg choices =>
    "error: invalid value '" ++ value ++ "' for '" ++ arg ++ "'\n" ++
      "  [possible values: " ++ ", ".intercalate choices ++ "]\n\n" ++ moreInformation
  | .missingArguments args usage =>
    "error: the following required arguments were not provided:\n" ++
      String.join (args.map fun a => "  " ++ a ++ "\n") ++ "\nUsage: " ++ usage ++ "\n\n" ++
      moreInformation

/-- What a command line asks for. -/
inductive Request
  | run (inv : Invocation)
  /-- Help for the program (`none`) or a command, long or short. -/
  | help (command : Option CommandSpec) (long : Bool)
  /-- Help printed as an error, for a command line with no arguments at all. -/
  | helpRequired
  | version (command : Option CommandSpec)
  | refuse (e : UsageError)

structure Seen where
  values : List (String × List String)
  positional : Option String
deriving DecidableEq, Repr

namespace Seen

def get (s : Seen) (key : String) : List String :=
  ((s.values.find? (·.1 = key)).map (·.2)).getD []

def has (s : Seen) (key : String) : Bool := s.values.any (·.1 = key)

def setting? (s : Seen) (key : String) : Option String := (s.get key).head?

def merge (s t : Seen) : Seen :=
  ⟨t.values ++ s.values.filter (fun (k, _) => !t.has k), t.positional⟩

end Seen

inductive Reading
  | done (seen : Seen)
  | help (long : Bool)
  | version
  /-- A command name and the arguments after it. -/
  | command (name : String) (rest : List String) (seen : Seen)

def isOptionLike (a : String) : Bool := a.startsWith "-" ∧ a.length > 1

/-- The rules of one level of the command line: its options, its positional argument, its
usage line, and whether words there name commands. -/
structure Level where
  options : List OptionSpec
  positional : Option PositionalSpec
  usage : String
  top : Bool

namespace Level

def byLong? (l : Level) (name : String) : Option OptionSpec := l.options.find? (·.long = name)

def byShort? (l : Level) (c : Char) : Option OptionSpec := l.options.find? (·.short = some c)

def tip (l : Level) : Bool := l.positional.isSome

def record (l : Level) (o : OptionSpec) (v : String) (s : Seen) : Except UsageError Seen :=
  if s.has o.key then
    if o.arity = .list then .ok { s with values := s.values.map fun (k, vs) => if k = o.key then (k, vs ++ [v]) else (k, vs) }
    else .error (.repeated o.display l.usage)
  else .ok { s with values := s.values ++ [(o.key, [v])] }

/-- The value of an option: given after `=` or in a group, or else the next argument, which
must not look like an option. -/
def value (o : OptionSpec) (given : Option String) (rest : List String) :
    Except UsageError (String × List String) :=
  match given, rest with
  | some v, _ => if v.isEmpty ∧ o.nonEmpty then .error (.missingValue o.display) else .ok (v, rest)
  | none, v :: rest' =>
    if isOptionLike v ∨ (v.isEmpty ∧ o.nonEmpty) then .error (.missingValue o.display) else .ok (v, rest')
  | none, [] => .error (.missingValue o.display)

def word (l : Level) (w : String) (s : Seen) : Except UsageError Seen :=
  match l.positional, s.positional with
  | some p, none =>
    if p.choices.isEmpty ∨ p.choices.contains w then .ok { s with positional := some w }
    else .error (.invalidValue w p.display p.choices)
  | _, _ => .error (.unexpectedArgument w l.usage false)

mutual

/-- Read the arguments of one level. `dashes` is set after `--`. -/
def read (l : Level) : Nat → List String → Seen → Bool → Except UsageError Reading
  | 0, _, s, _ => .ok (.done s)
  | _ + 1, [], s, _ => .ok (.done s)
  | fuel + 1, a :: rest, s, dashes =>
    if dashes then
      if l.top then .error (.unexpectedArgument a l.usage false)
      else do read l fuel rest (← l.word a s) true
    else if a = "--" then read l fuel rest s true
    else if a.startsWith "--" then
      let body := (a.drop 2).toString
      let (name, given) := match body.splitOn "=" with
        | n :: v :: more => (n, some ("=".intercalate (v :: more)))
        | _ => (body, none)
      if name = "help" then .ok (.help true)
      else if name = "version" then .ok .version
      else match l.byLong? name with
        | none => .error (.unexpectedArgument a l.usage l.tip)
        | some o =>
          if o.arity = .flag then
            match given with
            | some v => .error (.unexpectedValue v o.display l.usage)
            | none => do read l fuel rest (← l.record o "" s) false
          else do
            let (v, rest) ← value o given rest
            read l fuel rest (← l.record o v s) false
    else if isOptionLike a then
      group l fuel (a.drop 1).toString.toList rest s
    else if l.top then
      if a = "help" ∨ commands.any (·.name = a) then .ok (.command a rest s)
      else .error (.unrecognizedCommand a)
    else do read l fuel rest (← l.word a s) false

def group (l : Level) : Nat → List Char → List String → Seen → Except UsageError Reading
  | 0, _, _, s => .ok (.done s)
  | fuel + 1, [], rest, s => read l fuel rest s false
  | fuel + 1, c :: cs, rest, s =>
    if c = 'h' then .ok (.help false)
    else if c = 'V' then .ok .version
    else match l.byShort? c with
      | none => .error (.unexpectedArgument ("-" ++ c.toString) l.usage l.tip)
      | some o =>
        if o.arity = .flag then do group l fuel cs rest (← l.record o "" s)
        else if cs.isEmpty then do
          let (v, rest) ← value o none rest
          read l fuel rest (← l.record o v s) false
        else do
          let given := String.ofList (if cs.head? = some '=' then cs.drop 1 else cs)
          let (v, _) ← value o (some given) rest
          read l fuel rest (← l.record o v s) false

end

end Level

def topLevel : Level := ⟨globalOptions, none, programUsage, true⟩

def commandLevel (c : CommandSpec) : Level := ⟨c.options ++ globalOptions, c.positional, c.usage, false⟩

/-- Enough steps to read a list of arguments: one per argument and one per character. -/
def readingFuel (args : List String) : Nat := args.length + (args.map String.length).sum + 1

def commandNamed? (name : String) : Option CommandSpec := commands.find? (·.name = name)

def Command.ofSeen (c : CommandSpec) (s : Seen) : Except UsageError Command :=
  if c.name = "test" then
    .ok (.test ⟨s.positional.getD ".", s.has "list_modules", s.get "modules", s.get "exclude_modules",
      s.get "include_patterns", s.get "exclude_patterns", s.has "leak_temp", s.has "dry_run"⟩)
  else if c.name = "config" then
    if s.has "write" ∧ !s.has "generate" then
      .error (.missingArguments ["--generate"] (programName ++ " config --generate --write"))
    else .ok (.config ⟨s.has "generate", s.has "write", s.has "force"⟩)
  else
    match s.positional.bind ShellKind.ofName? with
    | some sh => .ok (.completions sh (s.setting? "output"))
    | none => .error (.missingArguments ["<SHELL>"] (programName ++ " completions <SHELL>"))

/-- What the arguments after the program's name ask for. -/
def Request.ofArgs (args : List String) : Request :=
  if args.isEmpty then .helpRequired
  else
    match topLevel.read (readingFuel args) args ⟨[], none⟩ false with
    | .error e => .refuse e
    | .ok (.help long) => .help none long
    | .ok .version => .version none
    | .ok (.done _) => .refuse .missingCommand
    | .ok (.command "help" rest _) =>
      match rest with
      | [] => .help none true
      | name :: _ =>
        match commandNamed? name with
        | some c => .help (some c) true
        | none => .refuse (.unrecognizedCommand name)
    | .ok (.command name rest top) =>
      match commandNamed? name with
      | none => .refuse (.unrecognizedCommand name)
      | some c =>
        match (commandLevel c).read (readingFuel rest) rest ⟨[], none⟩ false with
        | .error e => .refuse e
        | .ok (.help long) => .help (some c) long
        | .ok .version => .version (some c)
        | .ok (.command ..) => .refuse (.unrecognizedCommand name)
        | .ok (.done s) =>
          let s := top.merge s
          match Command.ofSeen c s with
          | .error e => .refuse e
          | .ok cmd => .run ⟨s.has "verbose", s.has "quiet", s.setting? "config", s.setting? "directory", cmd⟩

end TestDispatch.Cli
