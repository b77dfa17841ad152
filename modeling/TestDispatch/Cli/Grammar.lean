/-! The grammar of the `grind` command line: global options and three commands, each with its
options (flags, settings and lists), its positional argument and its help text. -/
namespace TestDispatch.Cli

inductive ShellKind
  | bash
  | zsh
  | fish
  | powershell
  | elvish
deriving DecidableEq, Repr

namespace ShellKind

def all : List ShellKind := [.bash, .zsh, .fish, .powershell, .elvish]

def name : ShellKind → String
  | .bash => "bash"
  | .zsh => "zsh"
  | .fish => "fish"
  | .powershell => "powershell"
  | .elvish => "elvish"

def ofName? (s : String) : Option ShellKind := all.find? (·.name = s)

end ShellKind

inductive Arity
  | flag
  | setting
  | list
deriving DecidableEq, Repr

/-- An option: the key its values are kept under, its names, how it takes values, the name
of its value, its one-line help and the further paragraphs of its long help. -/
structure OptionSpec where
  key : String
  short : Option Char
  long : String
  arity : Arity
  valueName : String
  help : String
  detail : List String
  /-- Whether an empty value is refused, as it is for paths. -/
  nonEmpty : Bool
deriving DecidableEq, Repr

/-- A positional argument: its key, the name of its value, whether it must be given, the
values it accepts (any when empty) and its help. -/
structure PositionalSpec where
  key : String
  valueName : String
  required : Bool
  choices : List String
  help : String
  defaultValue : Option String
deriving DecidableEq, Repr

/-- A command: its name, what it does, its own options and its positional argument. -/
structure CommandSpec where
  name : String
  about : String
  options : List OptionSpec
  positional : Option PositionalSpec
deriving DecidableEq, Repr

def programName : String := "grind"

def programVersion : String := "0.1.0"

def programAbout : String := "Distributed test task generation for multi-module Maven projects"

/-- The environment variable that names the configuration file when the option is absent. -/
def configVariable : String := "GRIND_CONFIG"

def flagSpec (key : String) (short : Option Char) (long help : String) : OptionSpec :=
  ⟨key, short, long, .flag, "", help, [], false⟩

/-- The options every command accepts. -/
def globalOptions : List OptionSpec :=
  [flagSpec "verbose" (some 'v') "verbose" "Enable verbose output",
   flagSpec "quiet" (some 'q') "quiet" "Suppress output except errors",
   ⟨"config", none, "config", .setting, "CONFIG", "Configuration file (default: ~/.grind.toml)", [], true⟩,
   ⟨"directory", some 'C', "directory", .setting, "DIRECTORY", "Working directory", [], true⟩]

def helpOption : OptionSpec := flagSpec "help" (some 'h') "help" "Print help"

def versionOption : OptionSpec := flagSpec "version" (some 'V') "version" "Print version"

/-- The command that runs the tests of a project. -/
def testCommand : CommandSpec :=
  ⟨"test", "Package the project's tests and submit them",
    [flagSpec "list_modules" (some 'l') "list-modules" "List discovered modules and exit",
     ⟨"modules", some 'm', "module", .list, "NAME", "Only run tests of this module (repeatable)", [], false⟩,
     ⟨"exclude_modules", some 'x', "exclude-module", .list, "NAME",
       "Skip tests of this module (repeatable)", [], false⟩,
     ⟨"include_patterns", some 'i', "include-pattern", .list, "GLOB",
       "Only run test classes matching this glob (repeatable)",
       ["\x60*\x60, \x60?\x60 and \x60[...]\x60 are wildcards. Braces and backslashes match themselves."],
       false⟩,
     ⟨"exclude_patterns", some 'e', "exclude-pattern", .list, "GLOB",
       "Skip test classes matching this glob (repeatable)",
       ["Same wildcards as --include-pattern. Exclusion wins over inclusion."], false⟩,
     flagSpec "leak_temp" none "leak-temp" "Keep the temporary directory with intermediate files",
     flagSpec "dry_run" none "dry-run" "Build the task manifest but do not submit it"],
    some ⟨"path", "PATH", false, [], "Path to the project (defaults to current directory)", some "."⟩⟩

def configCommand : CommandSpec :=
  ⟨"config", "Show or generate the configuration file",
    [flagSpec "generate" (some 'g') "generate" "Print a default configuration instead of the loaded one",
     flagSpec "write" (some 'w') "write" "With --generate, write the default configuration to the config file",
     flagSpec "force" (some 'f') "force" "Overwrite an existing configuration file without asking"],
    none⟩

def completionsCommand : CommandSpec :=
  ⟨"completions", "Generate shell completions",
    [⟨"output", some 'o', "output", .setting, "OUTPUT", "Output to file instead of stdout", [], true⟩],
    some ⟨"shell", "SHELL", true, ShellKind.all.map (·.name), "Shell to generate completions for", none⟩⟩

def commands : List CommandSpec := [testCommand, configCommand, completionsCommand]

def helpCommandAbout : String := "Print this message or the help of the given subcommand(s)"

/-- An option as errors name it: its long name, with the value's name when it takes one. -/
def OptionSpec.display (o : OptionSpec) : String :=
  if o.arity = .flag then "--" ++ o.long else "--" ++ o.long ++ " <" ++ o.valueName ++ ">"

def PositionalSpec.display (p : PositionalSpec) : String :=
  if p.required then "<" ++ p.valueName ++ ">" else "[" ++ p.valueName ++ "]"

def CommandSpec.usage (c : CommandSpec) : String :=
  programName ++ " " ++ c.name ++ " [OPTIONS]" ++
    match c.positional with
    | some p => " " ++ p.display
    | none => ""

def programUsage : String := programName ++ " [OPTIONS] <COMMAND>"

end TestDispatch.Cli
