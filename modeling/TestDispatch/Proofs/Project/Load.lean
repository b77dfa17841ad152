import TestDispatch.Project.Model
import TestDispatch.Proofs.Except
import TestDispatch.Proofs.Fs.Walk
/-! Loading a project step by step: the checks before scanning, the reads of each module, and
`loadWith_contract` over every lawful monad the reader may run in. -/
namespace TestDispatch.Project

open TestDispatch.Fs TestDispatch.Classfile TestDispatch.Selection

section Monadic

variable {m : Type → Type} [Monad m] [LawfulMonad m] {α β γ : Type}

theorem mapM_congr_mem {l : List α} {f g : α → m β} (h : ∀ x ∈ l, f x = g x) :
    l.mapM f = l.mapM g := by
  induction l with
  | nil => rfl
  | cons x xs ih =>
    rw [List.mapM_cons, List.mapM_cons, h x List.mem_cons_self,
      ih fun y hy => h y (List.mem_cons_of_mem x hy)]

theorem mapM_bind_pure (xs : List α) (g : α → m β) (h : α → β → γ) :
    xs.mapM (fun x => g x >>= fun b => pure (h x b)) =
      xs.mapM g >>= fun bs => pure (List.zipWith h xs bs) := by
  induction xs with
  | nil => simp
  | cons x xs ih =>
    rw [List.mapM_cons, List.mapM_cons, ih]
    simp only [bind_assoc, pure_bind, List.zipWith_cons_cons]

theorem mapM_zipIdx_fst (l : List α) (f : α → m β) :
    l.zipIdx.mapM (fun x => f x.1) = l.mapM f := by
  conv => rhs; rw [← List.zipIdx_map_fst 0 l]
  rw [List.mapM_map]
  rfl

end Monadic

theorem dedupFrom_eq_nil {seen xs : List String} :
    dedupFrom seen xs = [] ↔ ∀ x ∈ xs, x ∈ seen := by
  induction xs generalizing seen with
  | nil => simp [dedupFrom]
  | cons x xs ih =>
    by_cases hx : x ∈ seen
    · simp [dedupFrom, hx, ih]
    · simp [dedupFrom, hx]

theorem dedup_eq_nil {xs : List String} : dedup xs = [] ↔ xs = [] := by
  rw [dedup, dedupFrom_eq_nil]
  simp [List.eq_nil_iff_forall_not_mem]

/-- Whether the options select a module: it is among the requested ones, when modules are
requested, and it is not excluded. -/
def Selected (options : ProjectOptions) (mod : Module) : Prop :=
  (∀ requested ∈ options.includeModules, mod.name ∈ requested) ∧
    mod.name ∉ options.excludeModules

instance (options : ProjectOptions) (mod : Module) : Decidable (Selected options mod) :=
  inferInstanceAs (Decidable (_ ∧ _))

theorem exists_mem_zipIdx {α : Type} {l : List α} {x : α} :
    (∃ i, (x, i) ∈ l.zipIdx) ↔ x ∈ l := by
  constructor
  · rintro ⟨i, hi⟩
    exact List.mem_iff_getElem?.mpr ⟨i, List.mem_zipIdx_iff_getElem?.mp hi⟩
  · intro h
    obtain ⟨i, hi⟩ := List.mem_iff_getElem?.mp h
    exact ⟨i, List.mem_zipIdx_iff_getElem?.mpr hi⟩

theorem mem_chosen_names {modules : List Module} {requested : List String} {n : String}
    (hn : n ∈ requested) :
    ((modules.zipIdx.filter fun x => requested.contains x.1.name).map fun x => x.1.name).contains n
      ↔ n ∈ modules.map Module.name := by
  simp only [List.contains_iff_mem, List.mem_map, List.mem_filter, Prod.exists]
  constructor
  · rintro ⟨mod, i, ⟨hmem, -⟩, rfl⟩
    exact ⟨mod, exists_mem_zipIdx.mp ⟨i, hmem⟩, rfl⟩
  · rintro ⟨mod, hmem, rfl⟩
    obtain ⟨i, hi⟩ := exists_mem_zipIdx.mpr hmem
    exact ⟨mod, i, ⟨hi, by simpa using hn⟩, rfl⟩

theorem missing_eq_filter {modules : List Module} {requested : List String} :
    (requested.filter fun n =>
      !((modules.zipIdx.filter fun x => requested.contains x.1.name).map fun x => x.1.name).contains n)
      = requested.filter (· ∉ modules.map Module.name) := by
  refine List.filter_congr fun n hn => ?_
  by_cases h : n ∈ modules.map Module.name
  · rw [(mem_chosen_names hn).mpr h]
    simp [h]
  · rw [Bool.eq_false_iff.mpr (mt (mem_chosen_names hn).mp h)]
    simp [h]

theorem mem_chosen_indices {modules : List Module} {p : Module × Nat → Bool} {mod : Module}
    {i : Nat} (hi : modules[i]? = some mod) :
    i ∈ (modules.zipIdx.filter p).map (fun x => x.2) ↔ p (mod, i) = true := by
  simp only [List.mem_map, List.mem_filter, Prod.exists]
  constructor
  · rintro ⟨m', j, ⟨hmem, hp⟩, rfl⟩
    have hj : modules[j]? = some m' := List.mem_zipIdx_iff_getElem?.mp hmem
    rw [hi, Option.some.injEq] at hj
    rw [hj]
    exact hp
  · intro hp
    exact ⟨mod, i, ⟨List.mem_zipIdx_iff_getElem?.mpr hi, hp⟩, rfl⟩

theorem selectModules_eq_error {modules : List Module} {options : ProjectOptions}
    {requested : List String} (hreq : options.includeModules = some requested)
    (hmissing : ∃ n ∈ requested, n ∉ modules.map Module.name) :
    selectModules modules options =
      .error (.modulesNotFound (dedup (requested.filter (· ∉ modules.map Module.name)))) := by
  have hne : (dedup (requested.filter (· ∉ modules.map Module.name))).isEmpty = false := by
    rw [List.isEmpty_eq_false_iff, Ne, dedup_eq_nil, List.filter_eq_nil_iff]
    obtain ⟨n, hn, hnot⟩ := hmissing
    exact fun h => h n hn (by simpa using hnot)
  unfold selectModules
  rw [hreq]
  dsimp only
  rw [missing_eq_filter, hne]
  rfl

theorem selectModules_ok {modules : List Module} {options : ProjectOptions}
    (hfound : ∀ requested ∈ options.includeModules, ∀ n ∈ requested, n ∈ modules.map Module.name) :
    ∃ included, selectModules modules options = .ok included ∧
      ∀ mod i, (mod, i) ∈ modules.zipIdx → included.contains i = decide (Selected options mod) := by
  unfold selectModules
  cases hreq : options.includeModules with
  | none =>
    refine ⟨_, rfl, ?_⟩
    intro mod i hmem
    have hi : modules[i]? = some mod := List.mem_zipIdx_iff_getElem?.mp hmem
    have hlt : i < modules.length := (List.getElem?_eq_some_iff.mp hi).1
    have hget : modules[i] = mod := (List.getElem?_eq_some_iff.mp hi).2
    simp [Selected, hreq, hlt, hget]
  | some requested =>
    have hnil : requested.filter (· ∉ modules.map Module.name) = [] := by
      rw [List.filter_eq_nil_iff]
      intro n hn
      simpa using hfound requested hreq n hn
    dsimp only
    rw [missing_eq_filter, hnil]
    refine ⟨_, rfl, ?_⟩
    intro mod i hmem
    have hi : modules[i]? = some mod := List.mem_zipIdx_iff_getElem?.mp hmem
    rw [Bool.eq_iff_iff]
    simp only [List.contains_iff_mem, List.mem_filter]
    rw [mem_chosen_indices hi]
    simp [Selected, hreq, hi]

theorem discoverModules_eq_error {t : Tree} {cwd : List String} {root : Path}
    (h : ¬ (t.isDir cwd root.text ∧ t.isFile cwd (root.join buildDescriptor).text)) :
    discoverModules t cwd root = .error (.notAProject root
      (if t.isDir cwd root.text then "no pom.xml file found" else "path is not a directory")) := by
  cases hd : t.isDir cwd root.text with
  | false => simp [discoverModules, validateRoot, hd]
  | true =>
    have hf : t.isFile cwd (root.join buildDescriptor).text = false := by simpa [hd] using h
    simp only [discoverModules, validateRoot, hd, hf, Bool.not_true, Bool.not_false,
      Bool.false_eq_true, if_false, if_true, Except.error_bind]
    rfl

theorem discoverModules_ok {t : Tree} {cwd : List String} {root : Path}
    (h : t.isDir cwd root.text ∧ t.isFile cwd (root.join buildDescriptor).text) :
    ∃ modules, discoverModules t cwd root = .ok modules := by
  obtain ⟨hd, hf⟩ := h
  simp [discoverModules, validateRoot, hd, hf]

section Prepare

variable {t : Tree} {cwd : List String} {root : Path} {options : ProjectOptions}
  {filters : FilterChain}

theorem prepareLoad_of_patterns_error {e : PatternError}
    (h : FilterChain.new options.includePatterns options.excludePatterns = .error e) :
    prepareLoad t cwd root options = .error (.invalidPattern e) := by
  simp [prepareLoad, h, Except.mapError]

theorem prepareLoad_of_discover_error {e : ProjectError}
    (hf : FilterChain.new options.includePatterns options.excludePatterns = .ok filters)
    (h : discoverModules t cwd root.normalizeRoot = .error e) :
    prepareLoad t cwd root options = .error e := by
  simp [prepareLoad, hf, Except.mapError, ProjectModel.discover, h]

theorem prepareLoad_of_select_error {modules : List Module} {e : ProjectError}
    (hf : FilterChain.new options.includePatterns options.excludePatterns = .ok filters)
    (hd : discoverModules t cwd root.normalizeRoot = .ok modules)
    (h : selectModules modules options = .error e) :
    prepareLoad t cwd root options = .error e := by
  simp [prepareLoad, hf, Except.mapError, ProjectModel.discover, hd, h]

theorem prepareLoad_of_select_ok {modules : List Module} {included : List Nat}
    (hf : FilterChain.new options.includePatterns options.excludePatterns = .ok filters)
    (hd : discoverModules t cwd root.normalizeRoot = .ok modules)
    (h : selectModules modules options = .ok included) :
    prepareLoad t cwd root options =
      .ok (filters, ⟨root.normalizeRoot, modules, List.range modules.length⟩, included) := by
  simp [prepareLoad, hf, Except.mapError, ProjectModel.discover, hd, h]

end Prepare

/-- `ns` leads from the directory `dir` names to a class file: a regular file reached through
directories only, whose name ends in `.class`. -/
def ClassFileAt (t : Tree) (cwd : List String) (dir : Path) (ns : List String) : Prop :=
  ∃ p, t.stat cwd dir.text = .ok (p, .dir) ∧ (∃ bytes mode, t.Below p ns (.file bytes mode)) ∧
    ((dir.joinAll ns).fileName?.getD "").endsWith classSuffix = true

def classFilesBelow (t : Tree) (cwd : List String) (dir : Path) : List (List String) :=
  match t.stat cwd dir.text with
  | .ok (p, .dir) =>
    ((t.walkFrom (t.entries.length + 1) p).filter fun (ns, e) =>
      e.kind = .file ∧ ((dir.joinAll ns).fileName?.getD "").endsWith classSuffix).map (·.1)
  | _ => []

theorem classFiles_eq_map (t : Tree) (cwd : List String) (mod : Module) :
    classFiles t cwd mod = (classFilesBelow t cwd mod.outputDir).map mod.outputDir.joinAll := by
  unfold classFiles classFilesBelow walkBelow
  rcases t.stat cwd mod.outputDir.text with e | ⟨p, _ | _ | _⟩
  · rfl
  · simp only [walkEntries_eq_map, List.filter_map, List.map_map]
    rfl
  · rfl
  · rfl

theorem nodup_classFilesBelow {t : Tree} (ht : t.Wf) (cwd : List String) (dir : Path) :
    (classFilesBelow t cwd dir).Nodup := by
  unfold classFilesBelow
  split
  · exact (Tree.nodup_walkFrom ht _ _).sublist (List.filter_sublist.map _)
  · exact List.nodup_nil

theorem mem_classFilesBelow {t : Tree} {cwd : List String} {dir : Path} {ns : List String} :
    ns ∈ classFilesBelow t cwd dir ↔ ClassFileAt t cwd dir ns := by
  unfold classFilesBelow ClassFileAt
  split
  · rename_i p hstat
    simp only [List.mem_map, List.mem_filter, Prod.exists, Tree.mem_walkFrom_complete, hstat,
      Except.ok.injEq, Prod.mk.injEq, and_true, exists_eq_left', decide_eq_true_eq]
    constructor
    · rintro ⟨_, e, ⟨hbelow, hkind, hname⟩, rfl⟩
      cases e <;> simp [Entry.kind] at hkind
      exact ⟨⟨_, _, hbelow⟩, hname⟩
    · rintro ⟨⟨bytes, mode, hbelow⟩, hname⟩
      exact ⟨ns, .file bytes mode, ⟨hbelow, rfl, hname⟩, rfl⟩
  · rename_i hstat
    simp only [List.not_mem_nil, false_iff, not_exists, not_and]
    intro p hp
    exact absurd hp (hstat p)

section Load

variable {m : Type → Type} [Monad m] [LawfulMonad m]
  (reader : Path → m (Except ClassfileError ClassDescriptor)) {t : Tree} {cwd : List String}

/-- Loading a module reads its class files, when it is included, and builds it from what was
read. -/
theorem loadModule_eq (filters : FilterChain) (included : Bool) (mod : Module) :
    loadModule reader t cwd filters included mod =
      (if included then classFilesBelow t cwd mod.outputDir else []).mapM
          (fun ns => reader (mod.outputDir.joinAll ns)) >>= fun rs =>
        pure (attributeArtifacts t cwd included
          (if included then { mod with testClasses := acceptedClasses filters rs } else mod)) := by
  cases included with
  | false => simp only [loadModule, Bool.false_eq_true, if_false, List.mapM_nil, pure_bind]
  | true =>
    simp only [loadModule, if_true, scanTestClasses, classFiles_eq_map, List.mapM_map,
      bind_assoc, pure_bind]
    rfl

omit [LawfulMonad m] in
theorem loadWith_of_prepareLoad_error {root : Path} {options : ProjectOptions} {e : ProjectError}
    (h : prepareLoad t cwd root options = .error e) :
    ProjectModel.loadWith reader t cwd root options = pure (.error e) := by
  unfold ProjectModel.loadWith
  rw [h]

theorem loadWith_of_prepareLoad_ok {root : Path} {options : ProjectOptions}
    {filters : FilterChain} {model : ProjectModel} {included : List Nat}
    (h : prepareLoad t cwd root options = .ok (filters, model, included))
    (hsel : ∀ mod i, (mod, i) ∈ model.modules.zipIdx →
      included.contains i = decide (Selected options mod)) :
    ∃ assemble : List (List (Except ClassfileError ClassDescriptor)) → ProjectModel,
      ProjectModel.loadWith reader t cwd root options =
        (model.modules.mapM fun mod =>
          (if Selected options mod then classFilesBelow t cwd mod.outputDir else []).mapM
            fun ns => reader (mod.outputDir.joinAll ns)) >>= fun rss => pure (.ok (assemble rss)) := by
  have hbody : ∀ x ∈ model.modules.zipIdx,
      loadModule reader t cwd filters (included.contains x.2) x.1 =
        loadModule reader t cwd filters (decide (Selected options x.1)) x.1 := by
    rintro ⟨mod, i⟩ hmem
    rw [hsel mod i hmem]
  unfold ProjectModel.loadWith
  rw [h]
  dsimp only
  rw [mapM_congr_mem hbody, mapM_zipIdx_fst model.modules
    fun mod => loadModule reader t cwd filters (decide (Selected options mod)) mod]
  simp only [loadModule_eq, decide_eq_true_eq]
  rw [mapM_bind_pure, bind_assoc]
  simp only [pure_bind]
  exact ⟨_, rfl⟩

end Load

/-- The contract of loading a project with `reader`. Three checks come first, in this order, and
each one that fails ends loading before any class file is read: the patterns compile, the
normalised root is a directory holding a `pom.xml` file, and every requested module exists.
Past them, loading reads, module by module, each class file of each selected module once, and
no other file. -/
def LoadContract {m : Type → Type} [Monad m]
    (reader : Path → m (Except ClassfileError ClassDescriptor)) (t : Tree) (cwd : List String)
    (root : Path) (options : ProjectOptions) : Prop :=
  let load := ProjectModel.loadWith reader t cwd root options
  let dir := root.normalizeRoot
  (∀ e, FilterChain.new options.includePatterns options.excludePatterns = .error e →
    load = pure (.error (.invalidPattern e))) ∧
  ∀ filters, FilterChain.new options.includePatterns options.excludePatterns = .ok filters →
    (¬ (t.isDir cwd dir.text ∧ t.isFile cwd (dir.join buildDescriptor).text) →
      load = pure (.error (.notAProject dir
        (if t.isDir cwd dir.text then "no pom.xml file found" else "path is not a directory")))) ∧
    (t.isDir cwd dir.text ∧ t.isFile cwd (dir.join buildDescriptor).text →
      ∃ modules, discoverModules t cwd dir = .ok modules ∧
        (∀ requested ∈ options.includeModules, (∃ n ∈ requested, n ∉ modules.map Module.name) →
          load = pure (.error (.modulesNotFound
            (dedup (requested.filter (· ∉ modules.map Module.name)))))) ∧
        ((∀ requested ∈ options.includeModules, ∀ n ∈ requested, n ∈ modules.map Module.name) →
          ∃ files : Path → List (List String),
            (∀ dir, (files dir).Nodup ∧ ∀ ns, ns ∈ files dir ↔ ClassFileAt t cwd dir ns) ∧
            ∃ assemble : List (List (Except ClassfileError ClassDescriptor)) → ProjectModel,
              load = (modules.mapM fun mod =>
                (if Selected options mod then files mod.outputDir else []).mapM
                  fun ns => reader (mod.outputDir.joinAll ns)) >>= fun rss =>
                pure (.ok (assemble rss))))

/-- Loading a project keeps `LoadContract` with every reader in every lawful monad: its checks
in order, then the reads of the included modules' class files and nothing else. -/
theorem loadWith_contract {m : Type → Type} [Monad m] [LawfulMonad m]
    (reader : Path → m (Except ClassfileError ClassDescriptor)) {t : Tree} (ht : t.Wf)
    (cwd : List String) (root : Path) (options : ProjectOptions) :
    LoadContract reader t cwd root options := by
  refine ⟨fun e he => loadWith_of_prepareLoad_error reader (prepareLoad_of_patterns_error he), ?_⟩
  intro filters hf
  refine ⟨fun hroot => loadWith_of_prepareLoad_error reader
    (prepareLoad_of_discover_error hf (discoverModules_eq_error hroot)), fun hroot => ?_⟩
  obtain ⟨modules, hd⟩ := discoverModules_ok hroot
  refine ⟨modules, hd, fun requested hreq hmissing => ?_, fun hfound => ?_⟩
  · exact loadWith_of_prepareLoad_error reader
      (prepareLoad_of_select_error hf hd (selectModules_eq_error hreq hmissing))
  · obtain ⟨included, hsel, hcontains⟩ := selectModules_ok hfound
    refine ⟨classFilesBelow t cwd,
      fun dir => ⟨nodup_classFilesBelow ht cwd dir, fun ns => mem_classFilesBelow⟩, ?_⟩
    exact loadWith_of_prepareLoad_ok reader (prepareLoad_of_select_ok hf hd hsel) hcontains

theorem loadWith_contract_reading_tree :
    Tree.Wf ⟨[(["p"], .dir), (["p", "pom.xml"], .file [] 420), (["p", "target"], .dir),
      (["p", "target", "ATest.class"], .file [] 420)]⟩ ∧
    @LoadContract Id _
      (fun p => pure (readClass ⟨[(["p"], .dir), (["p", "pom.xml"], .file [] 420),
        (["p", "target"], .dir), (["p", "target", "ATest.class"], .file [] 420)]⟩ [] p))
      ⟨[(["p"], .dir), (["p", "pom.xml"], .file [] 420), (["p", "target"], .dir),
        (["p", "target", "ATest.class"], .file [] 420)]⟩ [] ⟨"/p"⟩ {} :=
  have ht : Tree.Wf ⟨[(["p"], .dir), (["p", "pom.xml"], .file [] 420), (["p", "target"], .dir),
      (["p", "target", "ATest.class"], .file [] 420)]⟩ := by decide
  ⟨ht, loadWith_contract _ ht [] ⟨"/p"⟩ {}⟩

end TestDispatch.Project