import TestDispatch.Fs.Tree
import TestDispatch.Project.Module
import TestDispatch.Project.Error
/-! Finding the modules of a project: the root must be a directory holding `pom.xml`, and every
directory below it with `pom.xml` and `target` is a module, in depth-first byte order. -/
namespace TestDispatch.Project

open TestDispatch.Fs

/-- The entries below a directory, depth first with names in byte order, each with its path and
its entry (links not followed, and not entered). `p` is the physical path of `dir`. -/
def walkEntries (t : Tree) : Nat → Path → List String → List (Path × Entry)
  | 0, _, _ => []
  | fuel + 1, dir, p =>
    (t.names p).flatMap fun n =>
      match t.get? (p ++ [n]) with
      | some .dir => (dir.join n, Entry.dir) :: walkEntries t fuel (dir.join n) (p ++ [n])
      | some e => [(dir.join n, e)]
      | none => []

/-- The entries below a path that names a directory (following a link at the path itself), in
walk order; nothing when it names no directory. -/
def walkBelow (t : Tree) (cwd : List String) (dir : Path) : List (Path × Entry) :=
  match t.stat cwd dir.text with
  | .ok (p, .dir) => walkEntries t (t.entries.length + 1) dir p
  | _ => []

def isModuleRoot (t : Tree) (cwd : List String) (dir : Path) : Bool :=
  t.isFile cwd (dir.join buildDescriptor).text && t.isDir cwd (dir.join outputDirName).text

/-- Check that a root is a project: a directory with a build descriptor. -/
def validateRoot (t : Tree) (cwd : List String) (root : Path) : Except ProjectError Unit :=
  if !t.isDir cwd root.text then .error (.notAProject root "path is not a directory")
  else if !t.isFile cwd (root.join buildDescriptor).text then
    .error (.notAProject root s!"no {buildDescriptor} file found")
  else .ok ()

def discoverModules (t : Tree) (cwd : List String) (root : Path) : Except ProjectError (List Module) := do
  validateRoot t cwd root
  let dirs := root :: (walkBelow t cwd root).filterMap fun (p, e) =>
    if e = .dir then some p else none
  pure ((dirs.filter (isModuleRoot t cwd)).map Module.new)

end TestDispatch.Project
