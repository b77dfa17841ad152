import TestDispatch.Cli.Grammar
/-! Completion scripts: for each shell, the program's commands after its name, and after a
command its options, the global options and the fixed values of its positional argument. -/
namespace TestDispatch.Cli

/-- The option words of a command: every long name and short letter, globals included. -/
def optionWords (c : Option CommandSpec) : List String :=
  let opts := (c.map (·.options)).getD [] ++ globalOptions ++ [helpOption, versionOption]
  opts.flatMap fun o => ("--" ++ o.long) :: (o.short.map (fun s => ["-" ++ s.toString])).getD []

def positionalWords (c : CommandSpec) : List String := (c.positional.map (·.choices)).getD []

def commandWords : List String := commands.map (·.name) ++ ["help"]

def bashScript : String :=
  let cases := String.join (commands.map fun c =>
    "        " ++ c.name ++ ")\n            opts=\"" ++
      " ".intercalate (optionWords (some c) ++ positionalWords c) ++ "\"\n            ;;\n")
  "_" ++ programName ++ "() \x7b\n    local cur cmd opts\n    COMPREPLY=()\n" ++
  "    cur=\"$\x7bCOMP_WORDS[COMP_CWORD]\x7d\"\n    cmd=\"$\x7bCOMP_WORDS[1]\x7d\"\n" ++
  "    if [ \"$COMP_CWORD\" -eq 1 ]; then\n        opts=\"" ++
    " ".intercalate (optionWords none ++ commandWords) ++ "\"\n" ++
  "    else\n      case \"$cmd\" in\n" ++ cases ++
  "        *)\n            opts=\"\"\n            ;;\n      esac\n    fi\n" ++
  "    COMPREPLY=( $(compgen -W \"$opts\" -- \"$cur\") )\n    return 0\n\x7d\n\n" ++
  "complete -F _" ++ programName ++ " -o bashdefault -o default " ++ programName ++ "\n"

def zshScript : String :=
  let cases := String.join (commands.map fun c =>
    "    (" ++ c.name ++ ")\n      compadd -- " ++
      " ".intercalate (optionWords (some c) ++ positionalWords c) ++ "\n      ;;\n")
  "#compdef " ++ programName ++ "\n\n_" ++ programName ++ "() \x7b\n" ++
  "  if (( CURRENT == 2 )); then\n    compadd -- " ++
    " ".intercalate (optionWords none ++ commandWords) ++ "\n    return\n  fi\n" ++
  "  case $words[2] in\n" ++ cases ++ "  esac\n\x7d\n\n" ++
  "if [ \"$funcstack[1]\" = \"_" ++ programName ++ "\" ]; then\n    _" ++ programName ++
    " \"$@\"\nelse\n    compdef _" ++ programName ++ " " ++ programName ++ "\nfi\n"

def fishScript : String :=
  let top := String.join ((commands.map fun c => (c.name, c.about)) ++ [("help", helpCommandAbout)] |>.map
    fun (n, a) => "complete -c " ++ programName ++ " -n \"__fish_use_subcommand\" -f -a \"" ++ n ++
      "\" -d '" ++ a.replace "'" "\\'" ++ "'\n")
  let opts := String.join (commands.map fun c =>
    String.join ((c.options ++ globalOptions).map fun o =>
      "complete -c " ++ programName ++ " -n \"__fish_seen_subcommand_from " ++ c.name ++ "\"" ++
        (o.short.map (fun s => " -s " ++ s.toString)).getD "" ++ " -l " ++ o.long ++
        (if o.arity = .flag then "" else " -r") ++ " -d '" ++ o.help.replace "'" "\\'" ++ "'\n"))
  top ++ opts

def powershellScript : String :=
  let cases := String.join (commands.map fun c =>
    "        '" ++ programName ++ ";" ++ c.name ++ "' \x7b\n" ++
      String.join ((optionWords (some c) ++ positionalWords c).map fun w =>
        "            [CompletionResult]::new('" ++ w ++ "', '" ++ w ++ "', [CompletionResultType]::ParameterName, '" ++ w ++ "')\n") ++
      "            break\n        \x7d\n")
  "using namespace System.Management.Automation\n\n" ++
  "Register-ArgumentCompleter -Native -CommandName '" ++ programName ++ "' -ScriptBlock \x7b\n" ++
  "    param($wordToComplete, $commandAst, $cursorPosition)\n" ++
  "    $command = @('" ++ programName ++ "'; $commandAst.CommandElements | Select-Object -Skip 1 -First 1 | ForEach-Object \x7b $_.Extent.Text \x7d) -join ';'\n" ++
  "    $completions = @(switch ($command) \x7b\n        '" ++ programName ++ "' \x7b\n" ++
  String.join ((optionWords none ++ commandWords).map fun w =>
    "            [CompletionResult]::new('" ++ w ++ "', '" ++ w ++ "', [CompletionResultType]::ParameterValue, '" ++ w ++ "')\n") ++
  "            break\n        \x7d\n" ++ cases ++ "    \x7d)\n" ++
  "    $completions.Where\x7b $_.CompletionText -like \"$wordToComplete*\" \x7d | Sort-Object -Property ListItemText\n\x7d\n"

def elvishScript : String :=
  let entry (key : String) (words : List String) : String :=
    "    &'" ++ key ++ "'= \x7b\n" ++ String.join (words.map fun w => "        cand " ++ w ++ "\n") ++ "    \x7d\n"
  "use builtin;\nuse str;\n\n" ++
  "set edit:completion:arg-completer[" ++ programName ++ "] = \x7b|@words|\n" ++
  "    var command = '" ++ programName ++ "'\n" ++
  "    if (> (count $words) 2) \x7b\n        set command = $command';'$words[1]\n    \x7d\n" ++
  "    var completions = [\n" ++ entry programName (optionWords none ++ commandWords) ++
  String.join (commands.map fun c => entry (programName ++ ";" ++ c.name) (optionWords (some c) ++ positionalWords c)) ++
  "    ]\n    $completions[$command]\n\x7d\n"

/-- The completion script for a shell. -/
def completionScript : ShellKind → String
  | .bash => bashScript
  | .zsh => zshScript
  | .fish => fishScript
  | .powershell => powershellScript
  | .elvish => elvishScript

end TestDispatch.Cli
