/-! Packaged files under a module's output directory: test jars, runtime jars, and everything
else, which is ignored. -/
namespace TestDispatch.Project

inductive ArtifactKind
  /-- Needed only when the module's own tests run. -/
  | test
  /-- Needed by every module that depends on this one. -/
  | runtime
  /-- Sources, javadoc, or not a jar at all. -/
  | ignored
deriving DecidableEq, Repr, Inhabited

namespace ArtifactKind

/-- Classify a file by its name. -/
def classify (fileName : String) : ArtifactKind :=
  if fileName.endsWith "-test-sources.jar" || fileName.endsWith "-tests.jar" then .test
  else if fileName.endsWith ".jar" && !fileName.endsWith "-sources.jar" &&
      !fileName.endsWith "-javadoc.jar" then .runtime
  else .ignored

def name : ArtifactKind → String
  | test => "test"
  | runtime => "runtime"
  | ignored => "ignored"

end ArtifactKind

end TestDispatch.Project
