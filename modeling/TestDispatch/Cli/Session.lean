import TestDispatch.Cli.Request
import TestDispatch.Cli.Help
import TestDispatch.Cli.Completion
import TestDispatch.Task.Run
/-! Running a command line on a host: what it prints on each stream and its exit status. A
failure prints its causes joined by `: ` and exits with a status for its kind. -/
namespace TestDispatch.Cli

open TestDispatch.Fs
open TestDispatch.Tool
open TestDispatch.Task
open TestDispatch.Project

inductive CliError
  | run (e : PipelineError)
  | core (e : CoreError)
  | io (e : IoError)
  /-- A question to confirm an overwrite needs a terminal, and there is none. -/
  | noTerminal
deriving DecidableEq, Repr

def processChain (e : ProcessError) : String :=
  e.message ++ match e.cause? with
    | some c => ": " ++ c.message
    | none => ""

def coreChain : CoreError → String
  | .config (.tomlError d) => "TOML parsing error: " ++ d
  | .config (.tomlSerError d) => "TOML serialization error: " ++ d
  | .config (.io e) => "IO error reading config: " ++ e.message
  | .classfile (.unreadable p c) => (Classfile.ClassfileError.unreadable p c).message ++ ": " ++ c.message
  | e => e.message

/-- A failure with its causes, joined by `: `. -/
def CliError.chain : CliError → String
  | .run (.core e) => coreChain e
  | .run (.archiveFailed e) => (PipelineError.archiveFailed e).message ++ ": " ++ processChain e
  | .run (.submitFailed e) => (PipelineError.submitFailed e).message ++ ": " ++ processChain e
  | .run e => e.message
  | .core e => coreChain e
  | .io e => e.message
  | .noTerminal => "IO error: not a terminal: not a terminal"

def coreExitCode : CoreError → Nat
  | .config _ => 3
  | .project (.invalidPattern _) => 3
  | .project _ => 4
  | _ => 1

/-- The exit status of a failure. -/
def CliError.exitCode : CliError → Nat
  | .run (.core e) => coreExitCode e
  | .run (.noTestsFound ..) => 2
  | .run (.archiveFailed _) | .run (.submitFailed _) | .run (.invalidHashes ..) => 5
  | .run .interrupted => 130
  | .run _ => 1
  | .core e => coreExitCode e
  | .io _ | .noTerminal => 1

def usageExitCode : Nat := 2

/-- What running a command line leaves: the host after it, what it printed on the output and
error streams, and its exit status. -/
structure Session where
  host : Host
  stdout : String
  stderr : String
  exitCode : Nat
deriving Repr

def Session.success (host : Host) (out : String) : Session := ⟨host, out, "", 0⟩

def Session.failure (host : Host) (out : String) (e : CliError) : Session :=
  ⟨host, out, "✗ " ++ e.chain ++ "\n", e.exitCode⟩

def envSetting? (host : Host) (name : String) : Option String :=
  match envValue? host.env name with
  | some v => if v.isEmpty then none else some v
  | none => none

/-- A path made absolute against the working directory: the physical path when it exists,
otherwise its components collected with `.` dropped. -/
def absolutePath (host : Host) (path : String) : Path :=
  let joined := if path.startsWith "/" then Path.mk path else (Path.mk (showPath host.cwd)).join path
  match host.tree.stat host.cwd joined.text with
  | .ok (p, _) => ⟨showPath p⟩
  | .error _ => Path.ofComponents joined.components

def tempDir (host : Host) : Path := ⟨(envSetting? host "TMPDIR").getD "/tmp"⟩

/-- Where the configuration is: the option, the environment variable, or the file in the
home directory; nowhere when the host has no home directory. -/
def configLocation (inv : Invocation) (host : Host) : Option Path :=
  match inv.configPath with
  | some p => some ⟨p⟩
  | none =>
    match envSetting? host configVariable with
    | some p => some ⟨p⟩
    | none => (homeOf host).map (·.join Config.fileName)

def configFound (host : Host) (path : Path) : Config.Settings.Found :=
  match host.tree.stat host.cwd path.text with
  | .ok (_, .file bytes _) => .contents bytes
  | .ok _ => .notAFile
  | .error _ => .nothing

def loadConfig (inv : Invocation) (host : Host) : Except CliError (Config.Settings × Path) :=
  match configLocation inv host with
  | none => .error (.core (.config .noHomeDir))
  | some path =>
    match Config.Settings.load path (configFound host path) with
    | .ok c => .ok (c, path)
    | .error e => .error (.core (.config e))

def stageMessage : Stage → String
  | .discovery => "Scanning modules for test classes"
  | .packaging => "Writing task descriptions"
  | .archiving => "Archiving with isolate"
  | .manifest => "Building task manifest"
  | .submission => "Submitting to dist_test"

def secondsText (millis : Nat) : String :=
  let tenths := (millis + 50) / 100
  toString (tenths / 10) ++ "." ++ toString (tenths % 10) ++ "s"

def eventLine : Event → Option String
  | .stageCompleted s ms => some ("✓ " ++ stageMessage s ++ " (" ++ secondsText ms ++ ")\n")
  | .toolOutput l => some ("[" ++ l.tool ++ "] " ++ l.line ++ "\n")
  | .workDirKept p => some ("→ Intermediate files kept in " ++ p.text ++ "\n")
  | _ => none

def outcomeLines (o : Outcome) (dryRun : Bool) : String :=
  (if o.submitted then
    "✓ Submitted " ++ toString o.manifest.length ++ " tasks from " ++ toString o.modules ++ " modules\n"
  else
    "! Dry run: built " ++ toString o.manifest.length ++ " tasks from " ++ toString o.modules ++
      " modules, nothing submitted\n") ++
  if o.workDir.isNone ∧ dryRun then "→ Pass --leak-temp to keep the generated manifest\n" else ""

def TestOptions.project (o : TestOptions) : ProjectOptions :=
  ⟨if o.modules.isEmpty then none else some o.modules, o.excludeModules, o.includePatterns,
    o.excludePatterns⟩

def listModules (inv : Invocation) (host : Host) (root : Path) : Session :=
  match ProjectModel.discover host.tree host.cwd root with
  | .error e => Session.failure host "" (.core (.project e))
  | .ok model =>
    let header := if inv.quiet then ""
      else "Found " ++ toString model.modules.length ++ " modules in " ++ model.root.text ++ "\n"
    let rows := model.modules.map fun m =>
      let rel := ((m.root.stripPrefix? model.root).map (·.text)).getD m.root.text
      "  " ++ m.name ++ ": " ++ (if rel.isEmpty then "." else rel) ++ "\n"
    Session.success host (header ++ String.join rows)

/-- Run the test command. `watch` is a file whose appearance interrupts a running tool. -/
def runTest (inv : Invocation) (o : TestOptions) (host : Host) (watch : Option (List String)) :
    Session :=
  let root := absolutePath host o.path
  if o.listModules then listModules inv host root
  else
    match loadConfig inv host with
    | .error e => Session.failure host "" e
    | .ok (config, _) =>
      let tools : Toolbox Id :=
        Toolbox.ofSetups (ToolSetup.archiverOf config host) (ToolSetup.submitterOf config host) watch
      let options : RunOptions := ⟨o.project, o.dryRun, o.leakTemp, tempDir host⟩
      let (after, events, result) := Run.execute tools config host root options
      let progress := if inv.quiet then "" else String.join (events.filterMap eventLine)
      match result with
      | .ok outcome =>
        Session.success after (progress ++ if inv.quiet then "" else outcomeLines outcome o.dryRun)
      | .error e => Session.failure after progress (.run e)

def defaultConfigText : String :=
  match (({} : Config.Settings)).toToml with
  | .ok t => t
  | .error _ => ""

def runConfig (inv : Invocation) (o : ConfigOptions) (host : Host) : Session :=
  if !o.generate then
    match loadConfig inv host with
    | .error e => Session.failure host "" e
    | .ok (config, path) =>
      let header := if inv.quiet then "" else "Config from " ++ path.text ++ "\n"
      match config.toToml with
      | .ok text => Session.success host (header ++ text)
      | .error e => Session.failure host header (.core (.config e))
  else if !o.write then Session.success host defaultConfigText
  else
    match configLocation inv host with
    | none => Session.failure host "" (.core (.config .noHomeDir))
    | some path =>
      if host.tree.exists? host.cwd path.text ∧ !o.force then Session.failure host "" .noTerminal
      else
        match host.tree.writeFile host.cwd path.text (Text.Utf8.bytes defaultConfigText) with
        | .error e => Session.failure host "" (.io e)
        | .ok t =>
          Session.success { host with tree := t }
            (if inv.quiet then "" else "✓ Wrote default configuration to " ++ path.text ++ "\n")

def runCompletions (inv : Invocation) (shell : ShellKind) (output : Option String) (host : Host) :
    Session :=
  match output with
  | none => Session.success host (completionScript shell)
  | some path =>
    match host.tree.writeFile host.cwd path (Text.Utf8.bytes (completionScript shell)) with
    | .error e => Session.failure host "" (.io e)
    | .ok t =>
      Session.success { host with tree := t }
        (if inv.quiet then "" else "Completions written to " ++ path ++ "\n")

/-- The directory of the program's log files; it is made when a command starts, if there is a
home directory and it can be. -/
def prepareLogs (host : Host) : Host :=
  match homeOf host with
  | none => host
  | some home =>
    match host.tree.createDirAll host.cwd ((home.join ".grind").join "logs").text with
    | .ok t => { host with tree := t }
    | .error _ => host

def Session.ofInvocation (inv : Invocation) (host : Host) (watch : Option (List String)) : Session :=
  let host := prepareLogs host
  let moved : Except IoError Host := match inv.directory with
    | none => .ok host
    | some d =>
      match host.tree.stat host.cwd d with
      | .ok (p, .dir) => .ok { host with cwd := p }
      | .ok _ => .error .notADirectory
      | .error e => .error e
  match moved with
  | .error e => Session.failure host "" (.io e)
  | .ok host =>
    match inv.command with
    | .test o => runTest inv o host watch
    | .config o => runConfig inv o host
    | .completions shell output => runCompletions inv shell output host

/-- Run the program with the arguments after its name. -/
def Session.ofArgs (args : List String) (host : Host) (watch : Option (List String)) : Session :=
  let env := envValue? host.env configVariable
  match Request.ofArgs args with
  | .refuse e => ⟨host, "", e.text, usageExitCode⟩
  | .help c long => Session.success host (helpText c long env)
  | .helpRequired => ⟨host, "", helpText none false env, usageExitCode⟩
  | .version c => Session.success host (versionText c)
  | .run inv => Session.ofInvocation inv host watch

end TestDispatch.Cli
