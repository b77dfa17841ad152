import TestDispatch.Fs.Tree
import TestDispatch.Project.Module
import TestDispatch.Classfile.Encode
/-! Laying out modules and class files in a tree, the way a build leaves them. -/
namespace TestDispatch.Project

open TestDispatch.Fs TestDispatch.Classfile

def descriptorText : String := "<project/>"

/-- Make `dir` a module: create `dir/target` and write `dir/pom.xml`. -/
def writeModule (t : Tree) (cwd : List String) (dir : Path) : Except IoError Tree := do
  let t ← t.createDirAll cwd (dir.join outputDirName).text
  t.writeFile cwd (dir.join buildDescriptor).text (Text.Utf8.bytes descriptorText)

def writeClass (t : Tree) (cwd : List String) (classesDir : Path) (fqcn : String) (flags : Nat) :
    Except IoError (Tree × Path) := do
  let internal := fqcn.map fun c => if c = '.' then '/' else c
  let path := classesDir.join (classFilePath fqcn)
  let t ← match path.parent? with
    | some parent => t.createDirAll cwd parent.text
    | none => pure t
  let t ← t.writeFile cwd path.text (classBytes internal flags)
  pure (t, path)

end TestDispatch.Project
