import TestDispatch.Proofs.Project.Select
import TestDispatch.Proofs.Fs.Order
import TestDispatch.Proofs.Selection.Chain
/-! The fields of a loaded project, module by module: classes in walk order, filtered and
stably sorted, and jars by kind, whatever order the tree holds its entries in. -/
namespace TestDispatch.Project

open TestDispatch.Fs TestDispatch.Classfile TestDispatch.Selection

section WalkOrder

variable {t : Tree}

theorem pairwise_lt_names (ht : t.Wf) (p : List String) : (t.names p).Pairwise (· < ·) :=
  ((Tree.pairwise_names t p).and (Tree.nodup_names ht p)).imp fun h => lt_of_le_of_ne h.1 h.2

theorem pairwise_walkChild {walk : List String → List (List String × Entry)} (p : List String)
    (n : String) (hwalk : ∀ q, ((walk q).map Prod.fst).Pairwise (· < ·) ∧ ∀ x ∈ walk q, x.1 ≠ []) :
    ((t.walkChild walk p n).map Prod.fst).Pairwise (· < ·) := by
  unfold Tree.walkChild
  split
  · obtain ⟨hsorted, hne⟩ := hwalk (p ++ [n])
    simp only [List.map_cons, List.map_map, List.pairwise_cons, List.mem_map, Function.comp_apply]
    constructor
    · rintro _ ⟨⟨ns, e⟩, hmem, rfl⟩
      obtain ⟨c, cs, hcs⟩ := List.exists_cons_of_ne_nil (hne _ hmem)
      exact List.cons_lt_cons_iff.mpr (.inr ⟨rfl, hcs ▸ List.nil_lt_cons c cs⟩)
    · have hmap : (walk (p ++ [n])).map (Prod.fst ∘ fun x => (n :: x.1, x.2)) =
          ((walk (p ++ [n])).map Prod.fst).map (n :: ·) := by
        simp [Function.comp_def]
      rw [hmap, List.pairwise_map]
      exact hsorted.imp fun h => List.cons_lt_cons_iff.mpr (.inr ⟨rfl, h⟩)
  · simp
  · simp

theorem pairwise_walkFrom (ht : t.Wf) (fuel : Nat) (p : List String) :
    ((t.walkFrom fuel p).map Prod.fst).Pairwise (· < ·) := by
  induction fuel generalizing p with
  | zero => simp [Tree.walkFrom]
  | succ fuel ih =>
    have hne : ∀ q, ∀ x ∈ t.walkFrom fuel q, x.1 ≠ [] := fun q x hx =>
      (Tree.mem_walkFrom.mp hx).1.ne_nil
    simp only [Tree.walkFrom, List.map_flatMap]
    rw [List.pairwise_flatMap]
    refine ⟨fun n _ => pairwise_walkChild p n fun q => ⟨ih q, hne q⟩, ?_⟩
    refine (pairwise_lt_names ht p).imp fun {a b} hab x hx y hy => ?_
    obtain ⟨xs, rfl⟩ : ∃ xs, x = a :: xs := by
      have := Tree.head_of_mem_walkChild hx
      cases x with
      | nil => simp at this
      | cons c cs => exact ⟨cs, by simp_all⟩
    obtain ⟨ys, rfl⟩ : ∃ ys, y = b :: ys := by
      have := Tree.head_of_mem_walkChild hy
      cases y with
      | nil => simp at this
      | cons c cs => exact ⟨cs, by simp_all⟩
    exact List.cons_lt_cons_iff.mpr (.inl hab)

theorem pairwise_classFilesBelow (ht : t.Wf) (cwd : List String) (dir : Path) :
    (classFilesBelow t cwd dir).Pairwise (· < ·) := by
  unfold classFilesBelow
  split
  · exact (pairwise_walkFrom ht _ _).sublist (List.filter_sublist.map _)
  · exact List.Pairwise.nil

end WalkOrder

/-- `files` lists the names leading from `dir` to its class files, each once, in lexicographic
order, the order of a depth-first walk that takes the names of each directory in order. -/
def ClassWalk (t : Tree) (cwd : List String) (dir : Path) (files : List (List String)) : Prop :=
  files.Pairwise (· < ·) ∧ ∀ ns, ns ∈ files ↔ ClassFileAt t cwd dir ns

/-- `sorted` is `source` sorted by `key`, with entries of equal keys in their order in `source`. -/
def StableSortBy {α : Type} (key : α → String) (source sorted : List α) : Prop :=
  sorted.Pairwise (fun a b => key a ≤ key b) ∧ sorted.Perm source ∧
    ∀ k, sorted.filter (fun a => key a = k) = source.filter (fun a => key a = k)

theorem stableSortBy_sortBy {α : Type} (key : α → String) (l : List α) :
    StableSortBy key l (sortBy (fun a b => decide (key a ≤ key b)) l) := by
  have trans : ∀ a b c : α, decide (key a ≤ key b) = true → decide (key b ≤ key c) = true →
      decide (key a ≤ key c) = true := by
    intro a b c hab hbc
    simp only [decide_eq_true_eq] at hab hbc ⊢
    exact le_trans hab hbc
  have total : ∀ a b : α, (decide (key a ≤ key b) || decide (key b ≤ key a)) = true := by
    intro a b
    simpa using le_total (key a) (key b)
  have hperm : (sortBy (fun a b => decide (key a ≤ key b)) l).Perm l := sortBy_perm l
  refine ⟨by simpa using pairwise_sortBy trans total l, hperm, fun k => ?_⟩
  -- the entries of one key are a sorted sublist of the input, so they stay a sublist of the output
  have hsorted : (l.filter fun a => key a = k).Pairwise fun a b => decide (key a ≤ key b) := by
    refine List.Pairwise.imp_of_mem ?_ (List.pairwise_of_forall fun _ _ => trivial)
    intro a b ha hb _
    simp only [List.mem_filter, decide_eq_true_eq] at ha hb
    simp [ha.2, hb.2]
  have hsub := sublist_sortBy hsorted List.filter_sublist
  have hsub' := hsub.filter fun a => decide (key a = k)
  simp only [List.filter_filter, Bool.and_self] at hsub'
  exact (hsub'.eq_of_length (hperm.filter _).length_eq.symm).symm

def FileIn (t : Tree) (cwd : List String) (dir : Path) (n : String) : Prop :=
  ∃ p bytes mode, t.stat cwd dir.text = .ok (p, .dir) ∧ t.get? (p ++ [n]) = some (.file bytes mode)

def RuntimeJarName (n : String) : Prop :=
  n.endsWith ".jar" ∧ ¬ n.endsWith "-sources.jar" ∧ ¬ n.endsWith "-javadoc.jar" ∧
    ¬ n.endsWith "-tests.jar"

def TestJarName (n : String) : Prop :=
  n.endsWith "-tests.jar" ∨ n.endsWith "-test-sources.jar"

/-- `jars` are the regular files directly in `dir` whose names `kind` admits, in the order of
their names. -/
def JarsIn (t : Tree) (cwd : List String) (dir : Path) (kind : String → Prop) (jars : List Path) :
    Prop :=
  ∃ names : List String, names.Pairwise (· < ·) ∧ (∀ n, n ∈ names ↔ FileIn t cwd dir n ∧ kind n) ∧
    jars = names.map dir.join

/-- A test-sources jar is a sources jar too: classification must look for test jars first. -/
theorem endsWith_sources_of_test_sources {n : String} (h : n.endsWith "-test-sources.jar") :
    n.endsWith "-sources.jar" := by
  rw [endsWith_iff_suffix] at h ⊢
  exact (show "-sources.jar".toList <:+ "-test-sources.jar".toList by decide).trans h

theorem classify_eq_test_iff (n : String) : ArtifactKind.classify n = .test ↔ TestJarName n := by
  unfold ArtifactKind.classify TestJarName
  by_cases htest : n.endsWith "-test-sources.jar" = true ∨ n.endsWith "-tests.jar" = true
  · simp only [Bool.or_eq_true, htest, if_true, true_iff]
    exact htest.symm
  · simp only [Bool.or_eq_true, htest, if_false]
    split <;> simp_all

theorem classify_eq_runtime_iff (n : String) :
    ArtifactKind.classify n = .runtime ↔ RuntimeJarName n := by
  unfold ArtifactKind.classify RuntimeJarName
  by_cases htest : n.endsWith "-test-sources.jar" = true ∨ n.endsWith "-tests.jar" = true
  · simp only [Bool.or_eq_true, htest, if_true, reduceCtorEq, false_iff]
    rintro ⟨-, hsources, -, htests⟩
    rcases htest with h | h
    · exact hsources (endsWith_sources_of_test_sources h)
    · exact htests h
  · simp only [Bool.or_eq_true, htest, if_false]
    simp only [not_or] at htest
    split <;> simp_all

theorem filterMap_eq_map_filter {α β : Type} {l : List α} {f : α → Option β} {c : α → Bool}
    {g : α → β} (h : ∀ x, f x = if c x then some (g x) else none) :
    l.filterMap f = (l.filter c).map g := by
  rw [← List.filterMap_eq_filter, List.map_filterMap]
  congr 1
  funext x
  rw [h]
  by_cases hc : c x <;> simp [hc, Option.guard]

theorem jarsIn_scanArtifacts {t : Tree} (ht : t.Wf) (cwd : List String) (dir : Path)
    {kind : ArtifactKind} {admits : String → Prop} (hkind : kind ≠ .ignored)
    (hadmits : ∀ n, ArtifactKind.classify n = kind ↔ admits n) :
    JarsIn t cwd dir admits
      ((scanArtifacts t cwd dir).filterMap fun (p, k) => if k = kind then some p else none) := by
  unfold scanArtifacts Tree.readDir
  rcases hs : t.stat cwd dir.text with e | ⟨p, _ | ⟨bytes, mode⟩ | target⟩
  · refine ⟨[], List.Pairwise.nil, fun n => ?_, rfl⟩
    simp [FileIn, hs]
  · refine ⟨(t.names p).filter fun n => (t.get? (p ++ [n])).map Entry.kind == some .file &&
        ArtifactKind.classify n == kind, (pairwise_lt_names ht p).sublist List.filter_sublist,
        fun n => ?_, ?_⟩
    · have hfile : FileIn t cwd dir n ↔ ∃ bytes mode, t.get? (p ++ [n]) = some (.file bytes mode) := by
        simp [FileIn, hs]
      rw [List.mem_filter, Tree.mem_names, hfile, ← hadmits]
      rcases hget : t.get? (p ++ [n]) with _ | _ | ⟨bytes, mode⟩ | target <;> simp [Entry.kind]
    · dsimp only
      simp only [List.filterMap_filterMap]
      refine filterMap_eq_map_filter fun n => ?_
      by_cases hk : ArtifactKind.classify n = kind
      · rcases t.get? (p ++ [n]) with _ | _ | ⟨bytes, mode⟩ | target <;>
          simp [Entry.kind, hk, hkind]
      · rcases t.get? (p ++ [n]) with _ | _ | ⟨bytes, mode⟩ | target <;> simp [Entry.kind, hk]
  · refine ⟨[], List.Pairwise.nil, fun n => ?_, rfl⟩
    simp [FileIn, hs]
  · refine ⟨[], List.Pairwise.nil, fun n => ?_, rfl⟩
    simp [FileIn, hs]

/-- What loading makes of the module `found`: it keeps its root and name; when it is included it
holds the classes that `reader` gives for its class files, in walk order, less failures and
rejected ones, stably sorted by class name, and its test jars; included or not, its runtime jars. -/
structure LoadedModule (reader : ClassReader) (t : Tree) (cwd : List String) (filters : FilterChain)
    (included : Prop) (found loaded : Module) : Prop where
  root : loaded.root = found.root
  name : loaded.name = found.name
  testClasses_included : included → ∃ files, ClassWalk t cwd found.outputDir files ∧
    StableSortBy ClassDescriptor.className
      (((files.map fun ns => reader (found.outputDir.joinAll ns)).filterMap Except.toOption).filter
        filters.accepts) loaded.testClasses
  testClasses_excluded : ¬ included → loaded.testClasses = []
  sourceArtifacts : JarsIn t cwd found.outputDir RuntimeJarName loaded.sourceArtifacts
  testArtifacts_included : included → JarsIn t cwd found.outputDir TestJarName loaded.testArtifacts
  testArtifacts_excluded : ¬ included → loaded.testArtifacts = []

theorem loadModule_pure (reader : ClassReader) (t : Tree) (cwd : List String)
    (filters : FilterChain) (included : Bool) (mod : Module) :
    Id.run (loadModule (fun p => pure (reader p)) t cwd filters included mod) =
      attributeArtifacts t cwd included (if included then
        { mod with testClasses := acceptedClasses filters ((classFiles t cwd mod).map reader) }
        else mod) := by
  cases included <;> simp [loadModule, scanTestClasses]

theorem prepareLoad_eq_ok {t : Tree} {cwd : List String} {root : Path} {options : ProjectOptions}
    {filters : FilterChain} {model : ProjectModel} {included : List Nat}
    (h : prepareLoad t cwd root options = .ok (filters, model, included)) :
    FilterChain.new options.includePatterns options.excludePatterns = .ok filters ∧
      ∃ modules, discoverModules t cwd root.normalizeRoot = .ok modules ∧
        model = ⟨root.normalizeRoot, modules, List.range modules.length⟩ ∧
        selectModules modules options = .ok included := by
  unfold prepareLoad at h
  obtain ⟨filters', hf, h⟩ := Except.bind_eq_ok.mp h
  obtain ⟨model', hm, h⟩ := Except.bind_eq_ok.mp h
  obtain ⟨included', hs, h⟩ := Except.bind_eq_ok.mp h
  simp only [Except.pure_def, Except.ok.injEq, Prod.mk.injEq] at h
  obtain ⟨rfl, rfl, rfl⟩ := h
  unfold ProjectModel.discover at hm
  obtain ⟨modules, hd, hm⟩ := Except.bind_eq_ok.mp hm
  obtain rfl := (Except.ok.inj hm).symm
  refine ⟨?_, modules, hd, rfl, hs⟩
  cases hnew : FilterChain.new options.includePatterns options.excludePatterns <;>
    simp_all [Except.mapError]

theorem loadWith_pure_eq_ok (reader : ClassReader) {t : Tree} {cwd : List String} {root : Path}
    {options : ProjectOptions} {model : ProjectModel}
    (h : Id.run (ProjectModel.loadWith (fun p => pure (reader p)) t cwd root options) = .ok model) :
    ∃ filters model₀, prepareLoad t cwd root options = .ok (filters, model₀, model.included) ∧
      model.root = model₀.root ∧ model.modules = model₀.modules.zipIdx.map fun x =>
        Id.run (loadModule (fun p => pure (reader p)) t cwd filters (model.included.contains x.2) x.1) := by
  rcases hprep : prepareLoad t cwd root options with e | ⟨filters, model₀, included⟩
  · rw [loadWith_of_prepareLoad_error _ hprep] at h
    cases h
  · unfold ProjectModel.loadWith at h
    rw [hprep] at h
    simp only [Id.run_bind, List.idRun_mapM, Id.run_pure, Except.ok.injEq] at h
    rw [← h]
    exact ⟨filters, model₀, rfl, rfl, rfl⟩

theorem discoverModules_eq_new {t : Tree} {cwd : List String} {root : Path} {modules : List Module}
    (h : discoverModules t cwd root = .ok modules) : ∀ mod ∈ modules, mod = Module.new mod.root := by
  unfold discoverModules at h
  obtain ⟨_, -, h⟩ := Except.bind_eq_ok.mp h
  intro mod hmod
  rw [← Except.ok.inj h] at hmod
  obtain ⟨dir, -, rfl⟩ := List.mem_map.mp hmod
  rfl

/-- Loading a discovered module gives what `LoadedModule` says. -/
theorem loadedModule_loadModule (reader : ClassReader) {t : Tree} (ht : t.Wf) (cwd : List String)
    (filters : FilterChain) (included : List Nat) (i : Nat) {mod : Module}
    (hnew : mod = Module.new mod.root) :
    LoadedModule reader t cwd filters (i ∈ included) mod
      (Id.run (loadModule (fun p => pure (reader p)) t cwd filters (included.contains i) mod)) := by
  rw [loadModule_pure]
  have hfields : ∀ m : Module, m.outputDir = mod.outputDir →
      (attributeArtifacts t cwd (included.contains i) m).sourceArtifacts =
        (scanArtifacts t cwd mod.outputDir).filterMap
          (fun (p, k) => if k = .runtime then some p else none) := by
    intro m hm
    simp only [attributeArtifacts, hm]
  constructor
  · split <;> rfl
  · split <;> rfl
  · intro hi
    rw [if_pos (List.contains_iff_mem.mpr hi)]
    refine ⟨classFilesBelow t cwd mod.outputDir,
      ⟨pairwise_classFilesBelow ht cwd _, fun ns => mem_classFilesBelow⟩, ?_⟩
    simp only [attributeArtifacts, classFiles_eq_map, List.map_map]
    exact stableSortBy_sortBy _ _
  · intro hi
    rw [if_neg (fun h => hi (List.contains_iff_mem.mp h)), hnew]
    rfl
  · rw [hfields _ (by split <;> rfl)]
    exact jarsIn_scanArtifacts ht cwd _ (by decide) classify_eq_runtime_iff
  · intro hi
    simp only [attributeArtifacts, List.contains_iff_mem.mpr hi, if_true]
    exact jarsIn_scanArtifacts ht cwd _ (by decide) classify_eq_test_iff
  · intro hi
    simp [attributeArtifacts, hi]

end TestDispatch.Project

namespace TestDispatch.Fs.Tree.Equiv

open TestDispatch.Project TestDispatch.Classfile TestDispatch.Selection

/-! Loading reads the tree only through lookups, listings and its size, so two trees that hold
the same entries load alike. -/

variable {t t' : Tree} (h : t.Equiv t')
include h

theorem walkEntries : Project.walkEntries t = Project.walkEntries t' := by
  funext fuel
  induction fuel with
  | zero => rfl
  | succ fuel ih =>
    funext dir p
    simp only [Project.walkEntries, h.names, h.get?, ih]

theorem walkBelow : Project.walkBelow t = Project.walkBelow t' := by
  funext cwd dir
  simp only [Project.walkBelow, h.stat, h.walkEntries, h.length]

theorem isModuleRoot : Project.isModuleRoot t = Project.isModuleRoot t' := by
  funext cwd dir
  simp only [Project.isModuleRoot, h.isDir, h.isFile]

theorem discoverModules : Project.discoverModules t = Project.discoverModules t' := by
  funext cwd root
  simp only [Project.discoverModules, validateRoot, h.isModuleRoot, h.isDir, h.isFile,
    h.walkBelow]

theorem prepareLoad : Project.prepareLoad t = Project.prepareLoad t' := by
  funext cwd root options
  simp only [Project.prepareLoad, ProjectModel.discover, h.discoverModules]

theorem attributeArtifacts : Project.attributeArtifacts t = Project.attributeArtifacts t' := by
  funext cwd included mod
  simp only [Project.attributeArtifacts, scanArtifacts, h.readDir]

theorem loadWith {m : Type → Type} [Monad m]
    (reader : Path → m (Except ClassfileError ClassDescriptor)) :
    ProjectModel.loadWith reader t = ProjectModel.loadWith reader t' := by
  funext cwd root options
  simp only [ProjectModel.loadWith, loadModule, scanTestClasses, classFiles, h.prepareLoad,
    h.walkBelow, h.attributeArtifacts]

end TestDispatch.Fs.Tree.Equiv

namespace TestDispatch.Project

open TestDispatch.Fs TestDispatch.Selection

/-- What loading with `reader` promises: a tree that holds the same entries in another order
loads alike, and when loading succeeds each discovered module is loaded as `LoadedModule` says,
the included ones being the selected indices. -/
def LoadsFields (reader : ClassReader) (t : Tree) (cwd : List String) (root : Path)
    (options : ProjectOptions) : Prop :=
  let load := fun t : Tree => Id.run (ProjectModel.loadWith (fun p => pure (reader p)) t cwd root options)
  (∀ t' : Tree, t'.entries.Perm t.entries → load t' = load t) ∧
  match load t with
  | .ok model => ∃ filters found,
      FilterChain.new options.includePatterns options.excludePatterns = .ok filters ∧
      discoverModules t cwd root.normalizeRoot = .ok found ∧
      SelectedIndices found options model.included ∧ model.modules.length = found.length ∧
      ∀ i (hi : i < found.length) (hi' : i < model.modules.length),
        LoadedModule reader t cwd filters (i ∈ model.included) found[i] model.modules[i]
  | .error _ => True

/-- Loading a project gives each module the fields `LoadsFields` lists, and the order in which
the tree holds its entries does not change the result. -/
theorem loadWith_fields (reader : ClassReader) {t : Tree} (ht : t.Wf) (cwd : List String)
    (root : Path) (options : ProjectOptions) : LoadsFields reader t cwd root options := by
  refine ⟨fun t' hperm => ?_, ?_⟩
  -- the entries of `t'` are those of `t`, so nothing loading looks at tells the two apart
  · have hwf : t'.Wf := (hperm.map Prod.fst).nodup_iff.mpr ht
    simp only [(Tree.Equiv.of_perm hwf hperm).loadWith]
  · dsimp only
    split
    · rename_i model h
      obtain ⟨filters, model₀, hprep, -, hmods⟩ := loadWith_pure_eq_ok reader h
      obtain ⟨hf, found, hd, rfl, hsel⟩ := prepareLoad_eq_ok hprep
      refine ⟨filters, found, hf, hd, (selectedIndices_of_ok hsel).2, by simp [hmods],
        fun i hi hi' => ?_⟩
      have hget : model.modules[i] = Id.run (loadModule (fun p => pure (reader p)) t cwd filters
          (model.included.contains i) found[i]) := by
        simp only [hmods, List.getElem_map, List.getElem_zipIdx, Nat.zero_add]
      rw [hget]
      exact loadedModule_loadModule reader ht cwd filters model.included i
        (discoverModules_eq_new hd _ (List.getElem_mem hi))
    · trivial

theorem loadWith_fields_reading_tree :
    Tree.Wf ⟨[(["p"], .dir), (["p", "pom.xml"], .file [] 420), (["p", "target"], .dir),
      (["p", "target", "ATest.class"], .file [] 420), (["p", "target", "a.jar"], .file [] 420)]⟩ ∧
    LoadsFields (readClass ⟨[(["p"], .dir), (["p", "pom.xml"], .file [] 420),
        (["p", "target"], .dir), (["p", "target", "ATest.class"], .file [] 420),
        (["p", "target", "a.jar"], .file [] 420)]⟩ [])
      ⟨[(["p"], .dir), (["p", "pom.xml"], .file [] 420), (["p", "target"], .dir),
        (["p", "target", "ATest.class"], .file [] 420), (["p", "target", "a.jar"], .file [] 420)]⟩
      [] ⟨"/p"⟩ {} :=
  have ht : Tree.Wf ⟨[(["p"], .dir), (["p", "pom.xml"], .file [] 420), (["p", "target"], .dir),
      (["p", "target", "ATest.class"], .file [] 420), (["p", "target", "a.jar"], .file [] 420)]⟩ := by
    decide
  ⟨ht, loadWith_fields _ ht [] ⟨"/p"⟩ {}⟩

end TestDispatch.Project
