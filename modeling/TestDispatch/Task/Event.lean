import TestDispatch.Tool.Output
import TestDispatch.Path
/-! What a run reports while it goes: stage starts, ends and skips, the kept work directory,
each tool line and the end of the run. -/
namespace TestDispatch.Task

inductive Stage
  | discovery
  | packaging
  | archiving
  | manifest
  | submission
deriving DecidableEq, Repr

namespace Stage

def all : List Stage := [.discovery, .packaging, .archiving, .manifest, .submission]

def name : Stage → String
  | .discovery => "discovery"
  | .packaging => "packaging"
  | .archiving => "archiving"
  | .manifest => "manifest"
  | .submission => "submission"

end Stage

/-- One report of a run. Durations are in milliseconds. -/
inductive Event
  | stageStarted (stage : Stage)
  | stageCompleted (stage : Stage) (millis : Nat)
  | stageSkipped (stage : Stage) (reason : String)
  /-- The work directory stays after the run, at this path. -/
  | workDirKept (path : Path)
  | toolOutput (line : Tool.ToolLine)
  /-- The run ended with this many tasks, handed over or not. -/
  | finished (tasks : Nat) (submitted : Bool) (millis : Nat)
deriving DecidableEq, Repr

end TestDispatch.Task
