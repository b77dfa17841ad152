import TestDispatch.Classfile.Header
/-! Build modules: a directory with `pom.xml` and a `target` output directory, named after its
root, with its test classes and jars. -/
namespace TestDispatch.Project

open TestDispatch.Classfile

def buildDescriptor : String := "pom.xml"

def outputDirName : String := "target"

/-- A build unit with its own compiled output and packaged jars. -/
structure Module where
  root : Path
  name : String
  testClasses : List ClassDescriptor := []
  sourceArtifacts : List Path := []
  testArtifacts : List Path := []
deriving DecidableEq

namespace Module

/-- An empty module at `root`, named after its last component (empty when there is none). -/
def new (root : Path) : Module where
  root := root
  name := root.fileName?.getD ""

def outputDir (m : Module) : Path := m.root.join outputDirName

end Module

end TestDispatch.Project
