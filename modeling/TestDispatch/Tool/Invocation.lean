import TestDispatch.Shell.Exec
import TestDispatch.Tool.Output
import TestDispatch.Task.Error
/-! Running an external tool: found as the system finds it, its output read by lines, and its run
ended by its status, a timeout or an interruption. -/
namespace TestDispatch.Tool

open TestDispatch.Fs
open TestDispatch.Shell
open TestDispatch.Task

/-- Where tools run: the file system, the working directory, the environment of the program
that starts them, and the home directory of its user's entry in the user database, if any. -/
structure Host where
  tree : Tree
  cwd : List String
  env : List (String × String)
  userHome : Option String
deriving Repr

structure ToolInvocation where
  program : String
  args : List String := []
  envs : List (String × String) := []
  timeoutMs : Nat
deriving DecidableEq, Repr

inductive ToolEnd
  | finished (result : Except ProcessError Unit)
  | interrupted
deriving Repr

/-- What a tool run left: the file system after it, the lines it printed, how it ended, and
how long it took in milliseconds. -/
structure ToolRun where
  tree : Tree
  lines : List ToolLine
  ending : ToolEnd
  elapsed : Nat
deriving Repr

/-- The most steps a tool's script may take; a script that needs more runs past any limit. -/
def stepLimit : Nat := 200000

namespace ToolInvocation

def label (inv : ToolInvocation) : String := (Path.mk inv.program).fileName?.getD inv.program

/-- Run a tool on a host. `watch` is a file whose appearance interrupts the run. -/
def run (inv : ToolInvocation) (host : Host) (watch : Option (List String)) : ToolRun :=
  let env := inv.envs.foldl (fun env (k, v) => (k, v) :: env.filter (·.1 ≠ k)) host.env
  let pathVar := ((env.find? (·.1 = "PATH")).map (·.2)).getD ""
  match findProgram host.tree host.cwd pathVar inv.program with
  | .error e => ⟨host.tree, [], .finished (.error (.spawn inv.program e)), 0⟩
  | .ok (img, path) =>
    let proc : Proc := {
      tree := host.tree, cwd := host.cwd, vars := env, exported := env.map (·.1), params := [],
      arg0 := inv.program, fds := [(0, .input []), (1, .stream .stdout), (2, .stream .stderr)],
      limits := { deadline := some inv.timeoutMs, watch := watch } }
    let (done, flow) := runImage stepLimit proc img path (inv.program :: inv.args)
    let label := inv.label
    match flow with
    | .halt .interrupted =>
      ⟨done.tree, outputLines label done.chunks false, .interrupted, done.clock⟩
    | .halt .timedOut =>
      let seen := done.chunks.filter (·.time < inv.timeoutMs)
      ⟨done.tree, outputLines label seen false, .finished (.error (.timeout label inv.timeoutMs)),
        inv.timeoutMs⟩
    | _ =>
      if done.clock ≥ inv.timeoutMs then
        let seen := done.chunks.filter (·.time < inv.timeoutMs)
        ⟨done.tree, outputLines label seen false, .finished (.error (.timeout label inv.timeoutMs)),
          inv.timeoutMs⟩
      else
        let lines := outputLines label done.chunks true
        let errors := streamReads (stderrWrites done.chunks)
        let code : Option Int := if done.signal.isSome then none else some done.status
        let result := if code = some 0 then .ok ()
          else .error (.failed label code ("\n".intercalate (forwardLines label true errors).2))
        ⟨done.tree, lines, .finished result, done.clock⟩

end ToolInvocation

end TestDispatch.Tool
