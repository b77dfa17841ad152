import TestDispatch.Config.Error
import TestDispatch.Project.Error
import TestDispatch.Classfile.Header
import TestDispatch.Json.Read
/-! Failures of the run: of an external tool, and of the pipeline as a whole. -/
namespace TestDispatch.Task

open TestDispatch.Fs

inductive ProcessError
  | spawn (program : String) (cause : IoError)
  | wait (program : String) (cause : IoError)
  /-- A non-zero exit (`none` for a signal), with the tail of the error stream. -/
  | failed (program : String) (code : Option Int) (stderr : String)
  /-- The tool ran past its time limit, given in milliseconds. -/
  | timeout (program : String) (millis : Nat)
deriving DecidableEq, Repr

/-- The sentence reported for a tool failure; a time limit is shown in whole seconds. -/
def ProcessError.message : ProcessError → String
  | .spawn program _ => s!"Failed to spawn {program}"
  | .wait program _ => s!"Failed to wait on {program}"
  | .failed program (some c) _ => s!"{program} exited with code {c}"
  | .failed program none _ => s!"{program} exited with a signal"
  | .timeout program ms => s!"{program} timed out after {ms / 1000}s"

def ProcessError.cause? : ProcessError → Option IoError
  | .spawn _ c | .wait _ c => some c
  | _ => none

inductive CoreError
  | config (e : Config.ConfigError)
  | project (e : Project.ProjectError)
  | classfile (e : Classfile.ClassfileError)
  | io (e : IoError)
deriving DecidableEq, Repr

def CoreError.message : CoreError → String
  | .config e => e.message
  | .project e => e.message
  | .classfile e => e.message
  | .io e => e.message

def debugList (xs : List String) : String := "[" ++ ", ".intercalate (xs.map Json.debugQuote) ++ "]"

/-- Why a run failed. -/
inductive PipelineError
  | core (e : CoreError)
  | noTestsFound (root : Path) (includePatterns excludePatterns : List String)
  | archiveFailed (cause : ProcessError)
  | invalidHashes (path : Path) (message : String)
  | submitFailed (cause : ProcessError)
  | interrupted
  | io (e : IoError)
  /-- A file system failure at a path that the sentence names. -/
  | ioAt (e : IoError) (path : Path)
deriving DecidableEq, Repr

def PipelineError.message : PipelineError → String
  | .core e => e.message
  | .noTestsFound root inc exc =>
    s!"No tests found for project {root.text} (include patterns: {debugList inc}, " ++
      s!"exclude patterns: {debugList exc})"
  | .archiveFailed _ => "isolate batcharchive failed"
  | .invalidHashes p m => s!"Invalid hash mapping in {p.text}: {m}"
  | .submitFailed _ => "dist_test client submit failed"
  | .interrupted => "Interrupted"
  | .io e => e.message
  | .ioAt e path => s!"{e.message} at path {Json.debugQuote path.text}"

end TestDispatch.Task
