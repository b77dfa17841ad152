import TestDispatch.Path
import TestDispatch.Sort
import TestDispatch.Fs.Error
/-! A file system as a finite map from physical paths to directories, files and symbolic links,
walked one name at a time with the kernel's limits. Names are texts: a name whose bytes are not
UTF-8 is outside this model. -/
namespace TestDispatch.Fs

inductive Entry
  | dir
  | file (bytes : List UInt8) (mode : Nat)
  | symlink (target : String)
deriving DecidableEq, Repr, Inhabited

inductive Kind
  | dir
  | file
  | symlink
deriving DecidableEq, Repr

def Entry.kind : Entry → Kind
  | .dir => .dir
  | .file .. => .file
  | .symlink _ => .symlink

structure Tree where
  entries : List (List String × Entry)
deriving Repr, Inhabited

/-- Where a walk ended: at an entry, or at a name that a directory does not hold. -/
inductive Resolved
  | found (path : List String) (entry : Entry)
  | absent (parent : List String) (name : String)
deriving DecidableEq, Repr

def showPath (p : List String) : String := "/" ++ "/".intercalate p

def maxLinks : Nat := 40

namespace Tree

def get? (t : Tree) (p : List String) : Option Entry :=
  if p.isEmpty then some .dir else (t.entries.find? (·.1 = p)).map (·.2)

def set (t : Tree) (p : List String) (e : Entry) : Tree :=
  ⟨(p, e) :: t.entries.filter (·.1 ≠ p)⟩

/-- Remove a path and everything below it. -/
def erase (t : Tree) (p : List String) : Tree :=
  ⟨t.entries.filter fun (q, _) => !p.isPrefixOf q⟩

/-- The names directly inside a directory, in byte order. -/
def names (t : Tree) (p : List String) : List String :=
  let ns := t.entries.filterMap fun (q, _) =>
    if q.length = p.length + 1 ∧ p.isPrefixOf q then q.getLast? else none
  sortBy (fun a b => decide (a ≤ b)) ns

/-- Walk `comps` from the directory `cur`. `follow` says whether a symbolic link in the last
place is replaced by its target, `dirOnly` that the path ended with a slash. -/
def walk (t : Tree) : Nat → Nat → List String → List String → Bool → Bool →
    Except IoError Resolved
  | 0, _, _, _, _, _ => .error .tooManyLinks
  | _ + 1, _, cur, [], _, _ => .ok (.found cur .dir)
  | fuel + 1, links, cur, c :: cs, follow, dirOnly =>
    if c = "." then walk t fuel links cur cs follow dirOnly
    else if c = ".." then walk t fuel links cur.dropLast cs follow dirOnly
    else if c.utf8ByteSize > 255 then .error .nameTooLong
    else
      let p := cur ++ [c]
      match t.get? p with
      | none => if cs.isEmpty then .ok (.absent cur c) else .error .notFound
      | some .dir => walk t fuel links p cs follow dirOnly
      | some (.file b m) =>
        if cs.isEmpty ∧ !dirOnly then .ok (.found p (.file b m)) else .error .notADirectory
      | some (.symlink target) =>
        if cs.isEmpty ∧ !follow ∧ !dirOnly then .ok (.found p (.symlink target))
        else if links ≥ maxLinks then .error .tooManyLinks
        else if target.isEmpty then .error .notFound
        else
          let base := if target.startsWith "/" then [] else cur
          walk t fuel (links + 1) base ((Path.mk target).parts.filter (· ≠ "") ++ cs) follow dirOnly

/-- Resolve a path against the working directory `cwd`. -/
def resolve (t : Tree) (cwd : List String) (path : String) (follow : Bool) :
    Except IoError Resolved :=
  if path.toList.contains (Char.ofNat 0) then .error .nulInPath
  else if path.isEmpty then .error .notFound
  else if path.utf8ByteSize ≥ 4096 then .error .nameTooLong
  else
    let base := if path.startsWith "/" then [] else cwd
    let comps := (Path.mk path).parts.filter (· ≠ "")
    walk t (comps.length + 40 * (path.length + 2) + 4096) 0 base comps follow (path.endsWith "/")

def stat (t : Tree) (cwd : List String) (path : String) : Except IoError (List String × Entry) :=
  match t.resolve cwd path true with
  | .ok (.found p e) => .ok (p, e)
  | .ok (.absent ..) => .error .notFound
  | .error e => .error e

/-- The entry a path names, not following a final symbolic link. -/
def lstat (t : Tree) (cwd : List String) (path : String) : Except IoError (List String × Entry) :=
  match t.resolve cwd path false with
  | .ok (.found p e) => .ok (p, e)
  | .ok (.absent ..) => .error .notFound
  | .error e => .error e

def exists? (t : Tree) (cwd : List String) (path : String) : Bool := (t.stat cwd path).toBool

def isFile (t : Tree) (cwd : List String) (path : String) : Bool :=
  match t.stat cwd path with
  | .ok (_, .file ..) => true
  | _ => false

def isDir (t : Tree) (cwd : List String) (path : String) : Bool :=
  match t.stat cwd path with
  | .ok (_, .dir) => true
  | _ => false

def readBytes (t : Tree) (cwd : List String) (path : String) : Except IoError (List UInt8) :=
  match t.stat cwd path with
  | .ok (_, .file b _) => .ok b
  | .ok _ => .error .isADirectory
  | .error e => .error e

/-- Create or truncate a file with the given bytes; a new file gets mode 0o644. -/
def writeFile (t : Tree) (cwd : List String) (path : String) (bytes : List UInt8) :
    Except IoError Tree :=
  match t.resolve cwd path true with
  | .ok (.found p (.file _ m)) => .ok (t.set p (.file bytes m))
  | .ok (.found _ _) => .error .isADirectory
  | .ok (.absent parent name) =>
    if path.endsWith "/" then .error .isADirectory else .ok (t.set (parent ++ [name]) (.file bytes 0o644))
  | .error e => .error e

def createDir (t : Tree) (cwd : List String) (path : String) : Except IoError Tree :=
  match t.resolve cwd path false with
  | .ok (.found ..) => .error .alreadyExists
  | .ok (.absent parent name) => .ok (t.set (parent ++ [name]) .dir)
  | .error e => .error e

def createDirAll (t : Tree) (cwd : List String) (path : String) : Except IoError Tree :=
  let absolute := path.startsWith "/"
  let comps := (Path.mk path).parts.filter (· ≠ "")
  let prefixes := (List.range comps.length).map fun n => comps.take (n + 1)
  prefixes.foldlM (fun t cs =>
    let p := (if absolute then "/" else "") ++ "/".intercalate cs
    if t.isDir cwd p then .ok t else t.createDir cwd p) t

def setMode (t : Tree) (cwd : List String) (path : String) (mode : Nat) : Except IoError Tree :=
  match t.stat cwd path with
  | .ok (p, .file b _) => .ok (t.set p (.file b mode))
  | .ok _ => .ok t
  | .error e => .error e

def symlink (t : Tree) (cwd : List String) (target path : String) : Except IoError Tree :=
  match t.resolve cwd path false with
  | .ok (.found ..) => .error .alreadyExists
  | .ok (.absent parent name) => .ok (t.set (parent ++ [name]) (.symlink target))
  | .error e => .error e

def removeFile (t : Tree) (cwd : List String) (path : String) : Except IoError Tree :=
  match t.lstat cwd path with
  | .ok (_, .dir) => .error .isADirectory
  | .ok (p, _) => .ok (t.erase p)
  | .error e => .error e

/-- Remove a directory and everything in it (a symbolic link is removed, not followed). -/
def removeDirAll (t : Tree) (cwd : List String) (path : String) : Except IoError Tree :=
  match t.lstat cwd path with
  | .ok (p, .dir) | .ok (p, .symlink _) => .ok (t.erase p)
  | .ok _ => .error .notADirectory
  | .error e => .error e

/-- The entries directly inside a directory, by name, without following links. -/
def readDir (t : Tree) (cwd : List String) (path : String) :
    Except IoError (List String × List (String × Entry)) :=
  match t.stat cwd path with
  | .ok (p, .dir) => .ok (p, (t.names p).filterMap fun n => (t.get? (p ++ [n])).map (n, ·))
  | .ok _ => .error .notADirectory
  | .error e => .error e

end Tree

end TestDispatch.Fs
