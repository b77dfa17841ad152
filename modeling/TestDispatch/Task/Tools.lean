import TestDispatch.Tool.Invocation
import TestDispatch.Config.Settings
/-! The two external tools of a run, the archiver and the submission client, with their server,
time limit and resolved program paths. -/
namespace TestDispatch.Task

open TestDispatch.Tool
open TestDispatch.Shell

def serverVariable : String := "ISOLATE_SERVER"

structure ToolSetup where
  program : String
  server : String
  timeoutMs : Nat
deriving DecidableEq, Repr

def envValue? (env : List (String × String)) (name : String) : Option String :=
  (env.find? (·.1 = name)).map (·.2)

/-- The home directory of a host: `HOME` when it is set and not empty, otherwise the user's
entry in the user database; there may be none. -/
def homeOf (host : Host) : Option Path :=
  match envValue? host.env "HOME" with
  | some h => if h.isEmpty then host.userHome.map Path.mk else some ⟨h⟩
  | none => host.userHome.map Path.mk

/-- Where a configured tool is: `~` expanded (kept as it is without a home directory), then a
name of one component that is not absolute looked up on the host's search path. -/
def resolveTool (host : Host) (path : String) : String :=
  let expanded := match homeOf host with
    | some home => Path.expandTilde home path
    | none => Path.mk path
  if expanded.components.length = 1 ∧ !expanded.isAbsolute then
    let pathVar := (envValue? host.env "PATH").getD ""
    match whichProgram host.tree host.cwd pathVar expanded.text with
    | some found => found
    | none => expanded.text
  else expanded.text

namespace ToolSetup

def archiverOf (c : Config.Settings) (host : Host) : ToolSetup :=
  ⟨resolveTool host c.isolatePath, c.isolateServer, c.processTimeoutSecs * 1000⟩

def submitterOf (c : Config.Settings) (host : Host) : ToolSetup :=
  ⟨resolveTool host c.distTestClientPath, c.isolateServer, c.processTimeoutSecs * 1000⟩

def archiving (s : ToolSetup) (descriptors : List Path) (hashesFile : Path) : ToolInvocation :=
  ⟨s.program, ["batcharchive", "--dump-json=" ++ hashesFile.text, "--"] ++ descriptors.map (·.text),
    [(serverVariable, s.server)], s.timeoutMs⟩

def submitting (s : ToolSetup) (manifestFile : Path) : ToolInvocation :=
  ⟨s.program, ["submit", manifestFile.text], [(serverVariable, s.server)], s.timeoutMs⟩

end ToolSetup

end TestDispatch.Task
