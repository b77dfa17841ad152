import TestDispatch.Task.Event
import TestDispatch.Task.Tools
import TestDispatch.Task.Package
import TestDispatch.Task.Manifest
import TestDispatch.Arithmetic
/-! A run against one project: load, package, archive, build the manifest and submit it unless
the run is dry. The work directory is removed at the end unless the caller keeps it. -/
namespace TestDispatch.Task

open scoped TestDispatch.Arithmetic

open TestDispatch.Fs
open TestDispatch.Tool
open TestDispatch.Project

def hashesFileName : String := "hashes.json"

def manifestFileName : String := "run.json"

def workDirPrefix : String := "grind."

structure RunOptions where
  project : ProjectOptions
  dryRun : Bool
  leakTemp : Bool
  tempRoot : Path
deriving DecidableEq, Repr

structure Outcome where
  modules : Nat
  manifest : TaskManifest
  submitted : Bool
  workDir : Option Path
deriving Repr

/-- The external steps of a run. Each is given the host as it is at that point and returns
what the tool left. -/
structure Toolbox (m : Type → Type) where
  archive : Host → List Path → Path → m ToolRun
  submit : Host → Path → m ToolRun

def Toolbox.ofSetups [Pure m] (archiver submitter : ToolSetup) (watch : Option (List String)) :
    Toolbox m :=
  ⟨fun host ds h => pure ((archiver.archiving ds h).run host watch),
   fun host mf => pure ((submitter.submitting mf).run host watch)⟩

def workDirName (n : Nat) : String :=
  workDirPrefix ++ String.ofList ((List.range 6).map fun i => Char.ofNat (97 + n / 26 ^ i % 26))

/-- Create a fresh work directory in `parent` under the first candidate name that is free.
There are more candidates than entries, so a free one is always among them. -/
def createWorkDir (t : Tree) (cwd : List String) (parent : Path) : Except PipelineError (Tree × Path) :=
  let rec attempt : List Nat → Except PipelineError (Tree × Path)
    | [] => .error (.ioAt .alreadyExists (parent.join (workDirName 0)))
    | n :: ns =>
      let path := parent.join (workDirName n)
      match t.createDir cwd path.text with
      | .ok t => .ok (t, path)
      | .error .alreadyExists => attempt ns
      | .error e => .error (.ioAt e path)
  attempt (List.range (t.entries.length + 1))

structure Progress where
  host : Host
  events : List Event
  clock : Nat

/-- The steps of a run: they fail with a `PipelineError` and keep their progress when they do. -/
abbrev RunM (m : Type → Type) := ExceptT PipelineError (StateT Progress m)

namespace Run

variable {m : Type → Type} [Monad m]

def report (e : Event) : RunM m Unit := modify fun p => { p with events := p.events ++ [e] }

def begin (s : Stage) : RunM m Nat := do
  report (.stageStarted s)
  pure (← get).clock

def finish (s : Stage) (started : Nat) : RunM m Unit := do
  report (.stageCompleted s ((← get).clock - started))

def files : RunM m (Tree × List String) := do
  let p ← get
  pure (p.host.tree, p.host.cwd)

def setTree (t : Tree) : RunM m Unit :=
  modify fun p => { p with host := { p.host with tree := t } }

/-- Take in what a tool left: its file system, its lines as events and its time; then its end. -/
def absorb (r : ToolRun) (failed : ProcessError → PipelineError) : RunM m Unit := do
  modify fun p =>
    ⟨{ p.host with tree := r.tree }, p.events ++ r.lines.map .toolOutput, p.clock + r.elapsed⟩
  match r.ending with
  | .interrupted => throw .interrupted
  | .finished (.error e) => throw (failed e)
  | .finished (.ok ()) => pure ()

/-- Every stage after the work directory exists at `work`. -/
def stages (tools : Toolbox m) (config : Config.Settings) (root : Path) (options : RunOptions)
    (work : Path) : RunM m Outcome := do
  let started := (← get).clock
  let timer ← begin .discovery
  let (t, cwd) ← files
  let model ← liftExcept ((ProjectModel.load t cwd root options.project).mapError (.core ∘ .project))
  finish .discovery timer
  let timer ← begin .packaging
  let (t, packaged) ← liftExcept ((TaskPackager.ofConfig config).package t cwd model work)
  setTree t
  finish .packaging timer
  if packaged.isEmpty then
    throw (.noTestsFound model.root options.project.includePatterns options.project.excludePatterns)
  let timer ← begin .archiving
  let hashesFile := work.join hashesFileName
  let r ← StateT.lift (ExceptT.lift (tools.archive (← get).host (packaged.map (·.genFile)) hashesFile))
  absorb r .archiveFailed
  finish .archiving timer
  let timer ← begin .manifest
  let manifestFile := work.join manifestFileName
  let (t, cwd) ← files
  let (t, manifest) ← liftExcept
    (hashesToManifest t cwd hashesFile manifestFile config.taskTimeoutSecs)
  setTree t
  finish .manifest timer
  let submitted ← if options.dryRun then do
      report (.stageSkipped .submission "dry run")
      pure false
    else do
      let timer ← begin .submission
      let r ← StateT.lift (ExceptT.lift (tools.submit (← get).host manifestFile))
      absorb r .submitFailed
      finish .submission timer
      pure true
  report (.finished manifest.length submitted ((← get).clock - started))
  pure ⟨model.modules.length, manifest, submitted, if options.leakTemp then some work else none⟩
where
  liftExcept {α : Type} (r : Except PipelineError α) : RunM m α :=
    match r with
    | .ok a => pure a
    | .error e => throw e

end Run

/-- Run every stage against the project at `root`: the host after the run, the events, and
the outcome or the failure. The work directory is made first and removed at the end unless
it is kept. -/
def Run.execute {m : Type → Type} [Monad m] (tools : Toolbox m) (config : Config.Settings)
    (host : Host) (root : Path) (options : RunOptions) :
    m (Host × List Event × Except PipelineError Outcome) := do
  match createWorkDir host.tree host.cwd options.tempRoot with
  | .error e => pure (host, [], .error e)
  | .ok (t, work) =>
    let events := if options.leakTemp then [Event.workDirKept work] else []
    let (result, p) ← (Run.stages tools config root options work).run.run
      ⟨{ host with tree := t }, events, 0⟩
    let t := if options.leakTemp then p.host.tree
      else (p.host.tree.removeDirAll p.host.cwd work.text).toOption.getD p.host.tree
    pure ({ p.host with tree := t }, p.events, result)

end TestDispatch.Task
