import TestDispatch.Cli.Session
/-! The program's entry point: run the command line against an empty file system and the
process environment, and print what it printed. -/
open TestDispatch

def readVariables : List String := ["PATH", "HOME", "TMPDIR", Cli.configVariable]

def main (args : List String) : IO UInt32 := do
  let env ← readVariables.filterMapM fun name => do
    pure ((← IO.getEnv name).map (name, ·))
  let session := Cli.Session.ofArgs args ⟨⟨[]⟩, [], env, none⟩ none
  IO.print session.stdout
  IO.eprint session.stderr
  pure session.exitCode.toUInt32
