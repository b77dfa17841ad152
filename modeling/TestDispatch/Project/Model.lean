import TestDispatch.Project.Discovery
import TestDispatch.Project.Artifact
import TestDispatch.Selection.Filter
import TestDispatch.Arithmetic
/-! The project model: the modules of a root, which are included, the test classes of each
included module and the jars each has built. Loading checks patterns, root and selection
before it reads any class file. -/
namespace TestDispatch.Project

open scoped TestDispatch.Arithmetic

open TestDispatch.Fs TestDispatch.Classfile TestDispatch.Selection

structure ProjectOptions where
  includeModules : Option (List String) := none
  excludeModules : List String := []
  includePatterns : List String := []
  excludePatterns : List String := []
deriving DecidableEq, Repr, Inhabited

/-- The modules of a project and which are included, by index. -/
structure ProjectModel where
  root : Path
  modules : List Module
  included : List Nat
deriving DecidableEq

namespace ProjectModel

def includedModules (m : ProjectModel) : List Module :=
  m.included.filterMap fun i => m.modules[i]?

def isIncluded (m : ProjectModel) (name : String) : Bool :=
  m.includedModules.any (·.name = name)

def testClassCount (m : ProjectModel) : Nat :=
  (m.modules.map (·.testClasses.length)).sum

def discover (t : Tree) (cwd : List String) (root : Path) : Except ProjectError ProjectModel := do
  let root := root.normalizeRoot
  let modules ← discoverModules t cwd root
  pure ⟨root, modules, List.range modules.length⟩

end ProjectModel

def dedupFrom (seen : List String) : List String → List String
  | [] => []
  | x :: xs => if seen.contains x then dedupFrom seen xs else x :: dedupFrom (x :: seen) xs

def dedup (xs : List String) : List String := dedupFrom [] xs

def selectModules (modules : List Module) (options : ProjectOptions) : Except ProjectError (List Nat) := do
  let indexed := modules.zipIdx
  let included ← match options.includeModules with
    | none => pure (List.range modules.length)
    | some requested =>
      let chosen := indexed.filter fun (m, _) => requested.contains m.name
      let matched := chosen.map (·.1.name)
      let missing := dedup (requested.filter fun n => !matched.contains n)
      if missing.isEmpty then pure (chosen.map (·.2)) else throw (.modulesNotFound missing)
  pure (included.filter fun i =>
    match modules[i]? with
    | some m => !options.excludeModules.contains m.name
    | none => false)

abbrev ClassReader := Path → Except ClassfileError ClassDescriptor

def readClass (t : Tree) (cwd : List String) : ClassReader := fun path =>
  match t.readBytes cwd path.text with
  | .ok bytes => ClassDescriptor.parse path bytes
  | .error e => .error (.unreadable path e)

def classFiles (t : Tree) (cwd : List String) (m : Module) : List Path :=
  ((walkBelow t cwd m.outputDir).filter fun (p, e) =>
    e.kind = .file ∧ (p.fileName?.getD "").endsWith classSuffix).map (·.1)

/-- The accepted test classes among what reading a module's class files gave: the classes read,
those the filters accept, sorted by class name (stably). -/
def acceptedClasses (filters : FilterChain) (results : List (Except ClassfileError ClassDescriptor)) :
    List ClassDescriptor :=
  sortBy (fun a b => decide (a.className ≤ b.className))
    ((results.filterMap Except.toOption).filter filters.accepts)

def scanTestClasses {m : Type → Type} [Monad m]
    (reader : Path → m (Except ClassfileError ClassDescriptor)) (t : Tree) (cwd : List String)
    (filters : FilterChain) (mod : Module) : m (List ClassDescriptor) := do
  let results ← (classFiles t cwd mod).mapM reader
  pure (acceptedClasses filters results)

/-- The classified jars directly under an output directory, sorted by path. -/
def scanArtifacts (t : Tree) (cwd : List String) (outputDir : Path) : List (Path × ArtifactKind) :=
  match t.readDir cwd outputDir.text with
  | .ok (_, entries) =>
    entries.filterMap fun (n, e) =>
      let kind := ArtifactKind.classify n
      if e.kind = .file ∧ kind ≠ .ignored then some (outputDir.join n, kind) else none
  | .error _ => []

/-- Fill in a module's jars; test jars only when it is included. -/
def attributeArtifacts (t : Tree) (cwd : List String) (included : Bool) (m : Module) : Module :=
  let found := scanArtifacts t cwd m.outputDir
  { m with
    sourceArtifacts := found.filterMap fun (p, k) => if k = .runtime then some p else none
    testArtifacts := if included then found.filterMap fun (p, k) => if k = .test then some p else none
      else [] }

/-- What loading checks before it reads any class file: the patterns compile, the root is a
project, and the requested modules exist. -/
def prepareLoad (t : Tree) (cwd : List String) (root : Path) (options : ProjectOptions) :
    Except ProjectError (FilterChain × ProjectModel × List Nat) := do
  let filters ← (FilterChain.new options.includePatterns options.excludePatterns).mapError .invalidPattern
  let model ← ProjectModel.discover t cwd root
  let included ← selectModules model.modules options
  pure (filters, model, included)

def loadModule {m : Type → Type} [Monad m]
    (reader : Path → m (Except ClassfileError ClassDescriptor)) (t : Tree) (cwd : List String)
    (filters : FilterChain) (included : Bool) (mod : Module) : m Module := do
  let mod ← if included then do
      let classes ← scanTestClasses reader t cwd filters mod
      pure { mod with testClasses := classes }
    else pure mod
  pure (attributeArtifacts t cwd included mod)

/-- Load a project with `reader`: patterns, root and selection first, then the included modules
are scanned in module order, and the jars of every module are attributed. -/
def ProjectModel.loadWith {m : Type → Type} [Monad m]
    (reader : Path → m (Except ClassfileError ClassDescriptor)) (t : Tree) (cwd : List String)
    (root : Path) (options : ProjectOptions) : m (Except ProjectError ProjectModel) :=
  match prepareLoad t cwd root options with
  | .error e => pure (.error e)
  | .ok (filters, model, included) => do
    let modules ← model.modules.zipIdx.mapM fun x =>
      loadModule reader t cwd filters (included.contains x.2) x.1
    pure (.ok { model with modules, included })

def ProjectModel.load (t : Tree) (cwd : List String) (root : Path) (options : ProjectOptions) :
    Except ProjectError ProjectModel :=
  Id.run (ProjectModel.loadWith (fun p => pure (readClass t cwd p)) t cwd root options)

/-- How many class files loading reads: those of the included modules, when loading gets as
far as scanning. -/
def classReads (t : Tree) (cwd : List String) (model : ProjectModel) : Nat :=
  (model.includedModules.map fun m => (classFiles t cwd m).length).sum

end TestDispatch.Project
