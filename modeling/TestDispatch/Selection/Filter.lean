import TestDispatch.Glob.Braces
import TestDispatch.Glob.Match
import TestDispatch.Classfile.Header
/-! Which compiled classes are tests to run: exclude patterns, then include patterns, then the
naming convention, then concreteness. Empty pattern lists add no filter. -/
namespace TestDispatch.Selection

open TestDispatch.Glob TestDispatch.Classfile

/-- A non-empty list of compiled test-name patterns. -/
structure PatternSet where
  sources : List String
  compiled : List (List Token)
deriving Repr

structure PatternError where
  pattern : String
  reason : GlobError
deriving DecidableEq, Repr

def PatternError.message (e : PatternError) : String :=
  s!"Invalid test name pattern '{e.pattern}': {e.reason.message}"

/-- Compile each pattern after making its braces literal; the first failure is reported. -/
def compileAll : List String → Except PatternError (List (List Token))
  | [] => .ok []
  | p :: ps =>
    match Glob.parse (literalBracesText p) with
    | .error e => .error ⟨p, e⟩
    | .ok tokens => (compileAll ps).map (tokens :: ·)

namespace PatternSet

/-- `none` when no pattern is given, which means "not configured" rather than "nothing
matches". -/
def new (patterns : List String) : Except PatternError (Option PatternSet) :=
  if patterns.isEmpty then .ok none
  else (compileAll patterns).map fun compiled => some ⟨patterns, compiled⟩

def isMatch (s : PatternSet) (name : String) : Bool := s.compiled.any fun t => matchesName t name

end PatternSet

inductive ClassFilter
  | excluded (patterns : PatternSet)
  | included (patterns : PatternSet)
  | testName
  | concrete

/-- The naming convention: no `$` (nested classes), a `.class` file, and a stem that starts
with `Test` or ends with `Test` or `TestCase`. -/
def isTestClassName (fileName : String) : Bool :=
  if fileName.toList.contains '$' then false
  else if fileName.endsWith classSuffix then
    let stem := (fileName.dropEnd classSuffix.length).toString
    stem.startsWith "Test" || stem.endsWith "Test" || stem.endsWith "TestCase"
  else false

namespace ClassFilter

def accepts : ClassFilter → ClassDescriptor → Bool
  | excluded ps, c => !ps.isMatch c.className
  | included ps, c => ps.isMatch c.className
  | testName, c => isTestClassName c.fileName
  | concrete, c => !(c.isInterface || c.isAbstract)

def name : ClassFilter → String
  | excluded _ => "exclude-patterns"
  | included _ => "include-patterns"
  | testName => "test-name"
  | concrete => "concrete"

end ClassFilter

/-- The filters in the order they are applied. -/
structure FilterChain where
  filters : List ClassFilter

namespace FilterChain

/-- Build the chain; exclude patterns are compiled before include patterns. -/
def new (includes excludes : List String) : Except PatternError FilterChain := do
  let ex ← PatternSet.new excludes
  let inc ← PatternSet.new includes
  pure ⟨ex.toList.map .excluded ++ inc.toList.map .included ++ [.testName, .concrete]⟩

def accepts (chain : FilterChain) (c : ClassDescriptor) : Bool :=
  chain.filters.all fun f => f.accepts c

end FilterChain

end TestDispatch.Selection
