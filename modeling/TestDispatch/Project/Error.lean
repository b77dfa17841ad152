import TestDispatch.Path
import TestDispatch.Selection.Filter
/-! Why a project could not be modelled: the root is not a project, requested modules do not
exist, or a test-name pattern does not compile. -/
namespace TestDispatch.Project

/-- Why a project could not be modelled. -/
inductive ProjectError
  | notAProject (path : Path) (reason : String)
  | modulesNotFound (names : List String)
  | invalidPattern (error : Selection.PatternError)
deriving DecidableEq, Repr

def ProjectError.message : ProjectError → String
  | .notAProject p reason => s!"Not a recognizable project at {p.text}: {reason}"
  | .modulesNotFound names => "Could not find specified modules: " ++ " ".intercalate names
  | .invalidPattern e => e.message

end TestDispatch.Project
