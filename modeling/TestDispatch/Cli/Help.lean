import TestDispatch.Cli.Grammar
/-! The help text of the program and of each command: description, usage line, then sections
of entries padded to the widest one; long help puts each help text below its entry. -/
namespace TestDispatch.Cli

def longIndent : String := "          "

/-- Whether a command has long help: some option has more than one paragraph. -/
def CommandSpec.hasLongHelp (c : CommandSpec) : Bool := c.options.any (!·.detail.isEmpty)

def helpOptionText (c : Option CommandSpec) (long : Bool) : String :=
  match c with
  | some c =>
    if c.hasLongHelp then
      if long then "Print help (see a summary with '-h')" else "Print help (see more with '--help')"
    else "Print help"
  | none => "Print help"

/-- The entry of an option in its section: `-s, --long <VALUE>`, with four spaces where
there is no short letter. -/
def OptionSpec.entry (o : OptionSpec) : String :=
  (match o.short with
    | some c => "-" ++ c.toString ++ ", "
    | none => "    ") ++
  "--" ++ o.long ++ (if o.arity = .flag then "" else " <" ++ o.valueName ++ ">")

def OptionSpec.notes (o : OptionSpec) (env : Option String) : List String :=
  if o.key = "config" then ["[env: " ++ configVariable ++ "=" ++ env.getD "" ++ "]"] else []

def PositionalSpec.notes (p : PositionalSpec) : List String :=
  (match p.defaultValue with
    | some d => ["[default: " ++ d ++ "]"]
    | none => []) ++
  (if p.choices.isEmpty then [] else ["[possible values: " ++ ", ".intercalate p.choices ++ "]"])

/-- The sort key of an option: its place, then its short letter in lower case marked by case,
or its long name. -/
def sortKey (place : Nat) (o : OptionSpec) : Nat × String :=
  (place, match o.short with
    | some c => c.toLower.toString ++ (if c.isLower then "0" else "1")
    | none => o.long)

def keyBefore (a b : Nat × String) : Bool := a.1 < b.1 ∨ (a.1 = b.1 ∧ a.2 < b.2)

/-- The options of a help text in order, with their help. The help and version options come
last. -/
def orderedOptions (c : Option CommandSpec) (long : Bool) : List OptionSpec :=
  let own := match c with
    | some c => c.options.zipIdx.map fun (o, i) => (sortKey i o, o)
    | none => []
  let globals := globalOptions.zipIdx.map fun (o, i) => (sortKey i o, o)
  let sorted := ((own ++ globals).mergeSort fun a b => keyBefore a.1 b.1).map (·.2)
  sorted ++ [{ helpOption with help := helpOptionText c long }, versionOption]

def shortLine (width : Nat) (entry help : String) (notes : List String) : String :=
  let text := " ".intercalate ((if help.isEmpty then [] else [help]) ++ notes)
  "  " ++ entry ++ "".pushn ' ' (width - entry.length) ++ "  " ++ text

def longLines (entry : String) (paragraphs : List String) (notes : List String) : String :=
  let body := "\n\n".intercalate (paragraphs ++ (if notes.isEmpty then [] else [" ".intercalate notes]))
  "  " ++ entry ++ "\n" ++ longIndent ++ body.replace "\n" ("\n" ++ longIndent)

def helpSection (heading : String) (entries : List String) (long : Bool) : String :=
  heading ++ ":\n" ++ (if long then "\n\n" else "\n").intercalate entries

def optionsSection (c : Option CommandSpec) (long : Bool) (env : Option String) : String :=
  let opts := orderedOptions c long
  let width := (opts.map (·.entry.length)).foldl max 0
  helpSection "Options" (opts.map fun o =>
    if long then longLines o.entry (o.help :: o.detail) (o.notes env)
    else shortLine width o.entry o.help (o.notes env)) long

/-- The help text of the program (`none`) or of a command. `env` is the value of the
configuration variable, if set. Long help takes effect only for a command that has it. -/
def helpText (c : Option CommandSpec) (long : Bool) (env : Option String) : String :=
  match c with
  | none =>
    let names := commands.map (·.name) ++ ["help"]
    let abouts := commands.map (·.about) ++ [helpCommandAbout]
    let width := (names.map (·.length)).foldl max 0
    programAbout ++ "\n\nUsage: " ++ programUsage ++ "\n\n" ++
      helpSection "Commands" ((names.zip abouts).map fun (n, a) => shortLine width n a []) false ++
      "\n\n" ++ optionsSection none false env ++ "\n"
  | some cmd =>
    let long := long ∧ cmd.hasLongHelp
    let arguments := match cmd.positional with
      | some p =>
        let entry := p.display
        helpSection "Arguments" [if long then longLines entry [p.help] p.notes
          else shortLine entry.length entry p.help p.notes] long ++ "\n\n"
      | none => ""
    cmd.about ++ "\n\nUsage: " ++ cmd.usage ++ "\n\n" ++ arguments ++
      optionsSection (some cmd) long env ++ "\n"

def versionText (c : Option CommandSpec) : String :=
  match c with
  | some cmd => programName ++ "-" ++ cmd.name ++ " " ++ programVersion ++ "\n"
  | none => programName ++ " " ++ programVersion ++ "\n"

end TestDispatch.Cli
