/-! Unix paths as text, with the component view the rest of the library reasons in: the root,
a leading `.`, `..` and proper names. Joining keeps the text, and an absolute tail replaces it. -/
namespace TestDispatch

/-- A file system path, kept as the text it was written with. -/
structure Path where
  text : String
deriving DecidableEq, Inhabited, Repr

/-- One step of a path. -/
inductive Component
  | rootDir
  | curDir
  | parentDir
  | normal (name : String)
deriving DecidableEq, Repr

namespace Component

def text : Component → String
  | rootDir => "/"
  | curDir => "."
  | parentDir => ".."
  | normal name => name

end Component

namespace Path

instance : Coe String Path := ⟨Path.mk⟩

def isAbsolute (p : Path) : Bool := p.text.startsWith "/"

def parts (p : Path) : List String := (p.text.toList.splitOn '/').map String.ofList

def bodyComponent (part : String) : Option Component :=
  if part = "" ∨ part = "." then none
  else if part = ".." then some .parentDir
  else some (.normal part)

/-- The components of a path: the root first if there is one; then a `.` only when the path
is relative and begins with `.` followed by a separator or the end; then the other parts,
with empty and `.` parts skipped. -/
def components (p : Path) : List Component :=
  let body := (p.parts.filterMap bodyComponent)
  if p.isAbsolute then .rootDir :: body
  else if p.text = "." ∨ p.text.startsWith "./" then .curDir :: body
  else body

/-- Append `tail` the way a path buffer grows: an absolute tail replaces the path, otherwise a
separator is inserted when the path is non-empty and does not end with one. -/
def push (p tail : Path) : Path :=
  if tail.isAbsolute then tail
  else if p.text = "" ∨ p.text.endsWith "/" then ⟨p.text ++ tail.text⟩
  else ⟨p.text ++ "/" ++ tail.text⟩

def join (p : Path) (q : String) : Path := p.push ⟨q⟩

def ofComponents (cs : List Component) : Path :=
  cs.foldl (fun acc c => acc.push ⟨c.text⟩) ⟨""⟩

def fileName? (p : Path) : Option String :=
  match p.components.getLast? with
  | some (.normal name) => some name
  | _ => none

def parent? (p : Path) : Option Path :=
  match p.components.reverse with
  | [] => none
  | .rootDir :: _ => none
  | _ :: rest => some (ofComponents rest.reverse)

/-- The rest of `p` after the components of `base`, when `base` is a prefix of `p`. -/
def stripPrefix? (p base : Path) : Option Path :=
  let rec go : List Component → List Component → Option (List Component)
    | rest, [] => some rest
    | c :: cs, b :: bs => if c = b then go cs bs else none
    | [], _ :: _ => none
  (go p.components base.components).map ofComponents

def endsWith (p : Path) (suffix : String) : Bool := p.text.endsWith suffix

/-- The components collected back into a path, with a separator at the end. -/
def normalizeRoot (p : Path) : Path :=
  let cleaned := ofComponents p.components
  if cleaned.text.endsWith "/" then cleaned else ⟨cleaned.text ++ "/"⟩

/-- Expand a leading `~`: exactly `~` is the home directory, `~/rest` is the home directory
joined with `rest`, and every other text is left as it is. -/
def expandTilde (home : Path) (s : String) : Path :=
  if s = "~" then home
  else if s.startsWith "~/" then home.join (s.drop 2).toString
  else ⟨s⟩

end Path

end TestDispatch
