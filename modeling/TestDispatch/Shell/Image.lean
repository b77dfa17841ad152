import TestDispatch.Shell.Utility
import TestDispatch.Path
/-! What starting a program finds at a path: a script with its interpreter, an installed utility,
or a reason it cannot be started; bare names are searched for on the search path. -/
namespace TestDispatch.Shell

open TestDispatch.Fs

/-- What a path holds that a process can be started from. -/
inductive Image
  | utility (u : Utility)
  /-- A script run by the interpreter on its first line, with the line's optional argument. -/
  | script (interpreter : Utility) (arg : Option String)
deriving DecidableEq, Repr

/-- The physical path a path names, read without the file system: the working directory's
path with the components applied. -/
def lexicalPath (cwd : List String) (path : String) : List String :=
  let base := if path.startsWith "/" then [] else cwd
  (Path.mk path).components.foldl (fun acc c =>
    match c with
    | .normal n => acc ++ [n]
    | .parentDir => acc.dropLast
    | _ => acc) base

def isExecutableMode (mode : Nat) : Bool := mode % 512 / 64 % 2 = 1 ∨ mode % 64 / 8 % 2 = 1 ∨ mode % 8 % 2 = 1

def interpreterLine (bytes : List UInt8) : Option (String × Option String) :=
  match bytes with
  | 35 :: 33 :: rest =>
    let line := Text.Utf8.lossy (rest.takeWhile (· ≠ 10))
    let words := (line.splitOn " ").flatMap (·.splitOn "\t") |>.filter (· ≠ "")
    match words with
    | [] => none
    | [interp] => some (interp, none)
    | interp :: args => some (interp, some (" ".intercalate args))
  | _ => none

/-- The image at a path, or why it cannot be started. -/
def locate (t : Tree) (cwd : List String) (path : String) : Except IoError Image :=
  match t.stat cwd path with
  | .ok (_, .file bytes mode) =>
    if !isExecutableMode mode then .error .permissionDenied
    else
      match interpreterLine bytes with
      | some (interp, arg) =>
        match t.stat cwd interp with
        | .ok _ => .error .execFormat
        | .error .notFound =>
          match Utility.installedAt (lexicalPath cwd interp) with
          | some u => .ok (.script u arg)
          | none => .error .notFound
        | .error e => .error e
      | none => .error .execFormat
  | .ok _ => .error .permissionDenied
  | .error .notFound =>
    if path.isEmpty then .error .notFound
    else match Utility.installedAt (lexicalPath cwd path) with
      | some u => .ok (.utility u)
      | none => .error .notFound
  | .error e => .error e

/-- The directories of a search path; an empty entry is the working directory. -/
def searchDirs (pathVar : String) : List String :=
  (pathVar.splitOn ":").map fun d => if d.isEmpty then "." else d

/-- Look a program up as `execvp` does: a name with a slash is used as it is; otherwise each
directory of the search path is tried, a permission refusal is remembered, and other misses
go on to the next directory. The image and the path it was found at. -/
def findProgram (t : Tree) (cwd : List String) (pathVar : String) (program : String) :
    Except IoError (Image × String) :=
  if program.contains '/' ∨ program.isEmpty then (locate t cwd program).map (·, program)
  else
    let rec go : List String → Bool → Except IoError (Image × String)
      | [], denied => .error (if denied then .permissionDenied else .notFound)
      | d :: ds, denied =>
        let candidate := if d.endsWith "/" then d ++ program else d ++ "/" ++ program
        match locate t cwd candidate with
        | .ok img => .ok (img, candidate)
        | .error .permissionDenied => go ds true
        | .error .notFound | .error .notADirectory => go ds denied
        | .error e => .error e
    go (searchDirs pathVar) false

def isExecutableFile (t : Tree) (cwd : List String) (path : String) : Bool :=
  match t.stat cwd path with
  | .ok (_, .file _ mode) => isExecutableMode mode
  | .ok _ => false
  | .error .notFound => (Utility.installedAt (lexicalPath cwd path)).isSome
  | .error _ => false

def whichProgram (t : Tree) (cwd : List String) (pathVar : String) (name : String) :
    Option String :=
  ((searchDirs pathVar).map fun d => if d.endsWith "/" then d ++ name else d ++ "/" ++ name).find?
    (isExecutableFile t cwd)

def defaultSearchPath : String := "/usr/local/sbin:/usr/local/bin:/usr/sbin:/usr/bin:/sbin:/bin"

end TestDispatch.Shell
