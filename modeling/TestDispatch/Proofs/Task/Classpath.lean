import TestDispatch.Proofs.Task.Files
import TestDispatch.Proofs.Fs.Relative
import TestDispatch.Proofs.Text.Utf8
/-! Reading a task's files back: with portable names every entry joined to the root names what
it was built from, and a backslash in a name breaks that (`classpath_misreads_entries`). -/
namespace TestDispatch

open TestDispatch.Fs TestDispatch.Project TestDispatch.Classfile TestDispatch.Json

namespace Fs.Tree

theorem readDir_get? {t : Tree} {cwd : List String} {path : String} {p : List String}
    {entries : List (String × Entry)} (h : t.readDir cwd path = .ok (p, entries))
    {n : String} {e : Entry} (hn : (n, e) ∈ entries) : t.get? (p ++ [n]) = some e := by
  unfold readDir at h
  split at h
  · simp only [Except.ok.injEq, Prod.mk.injEq] at h
    obtain ⟨rfl, rfl⟩ := h
    obtain ⟨m, -, hm⟩ := List.mem_filterMap.mp hn
    obtain ⟨e', he', heq⟩ := Option.map_eq_some_iff.mp hm
    obtain ⟨rfl, rfl⟩ := Prod.mk.inj heq
    exact he'
  all_goals cases h

end Fs.Tree

namespace Project

theorem root_of_load {t : Tree} {cwd : List String} {root : Path} {options : ProjectOptions}
    {model : ProjectModel} (hload : ProjectModel.load t cwd root options = .ok model) :
    model.root = root.normalizeRoot := by
  obtain ⟨filters, model₀, hprep, hroot, -⟩ := loadWith_pure_eq_ok (readClass t cwd) hload
  obtain ⟨-, found, -, rfl, -⟩ := prepareLoad_eq_ok hprep
  exact hroot

section Names

variable {t : Tree} {P : String → Prop} (hP : ∀ x ∈ t.entries, ∀ n ∈ x.1, P n)
include hP

theorem scanArtifacts_names {cwd : List String} {dir a : Path} {k : ArtifactKind}
    (h : (a, k) ∈ scanArtifacts t cwd dir) : ∃ n, P n ∧ a = dir.join n := by
  unfold scanArtifacts at h
  split at h
  · rename_i p entries hread
    obtain ⟨⟨n, e⟩, hne, hsome⟩ := List.mem_filterMap.mp h
    have hget := Tree.readDir_get? hread hne
    simp only [Option.ite_none_right_eq_some, Option.some.injEq, Prod.mk.injEq] at hsome
    exact ⟨n, hP _ (Tree.get?_eq_some (by simp) hget) n (by simp), hsome.2.1.symm⟩
  · cases h

theorem discoverModules_roots {cwd : List String} {root : Path} {modules : List Module}
    (h : discoverModules t cwd root = .ok modules) :
    ∀ mod ∈ modules, ∃ ns, (∀ n ∈ ns, P n) ∧ mod.root = root.joinAll ns := by
  unfold discoverModules at h
  obtain ⟨_, -, h⟩ := Except.bind_eq_ok.mp h
  intro mod hmod
  rw [← Except.ok.inj h] at hmod
  obtain ⟨dir, hdir, rfl⟩ := List.mem_map.mp hmod
  rcases List.mem_cons.mp (List.mem_filter.mp hdir).1 with rfl | hbelow
  · exact ⟨[], by simp, rfl⟩
  · obtain ⟨⟨q, e⟩, hq, hsome⟩ := List.mem_filterMap.mp hbelow
    obtain ⟨-, hqd⟩ := Option.ite_none_right_eq_some.mp hsome
    cases hqd
    unfold walkBelow at hq
    split at hq
    · rw [walkEntries_eq_map] at hq
      obtain ⟨⟨ns, e'⟩, hmem, heq⟩ := List.mem_map.mp hq
      obtain ⟨rfl, -⟩ := Prod.mk.inj heq
      exact ⟨ns, (Tree.mem_walkFrom.mp hmem).1.forall_names hP, rfl⟩
    · cases hq

/-- A module of a loaded project sits at the project root or below it, and its jars lie directly
in its output directory; all of them are reached through names of the tree. -/
theorem module_paths_of_load {cwd : List String} {root : Path} {options : ProjectOptions}
    {model : ProjectModel} {m : Module} (hload : ProjectModel.load t cwd root options = .ok model)
    (hm : m ∈ model.modules) :
    (∃ ns, (∀ n ∈ ns, P n) ∧ m.root = model.root.joinAll ns) ∧
      ∀ a ∈ m.sourceArtifacts ++ m.testArtifacts, ∃ n, P n ∧ a = m.outputDir.join n := by
  obtain ⟨filters, model₀, hprep, hroot, hmods⟩ := loadWith_pure_eq_ok (readClass t cwd) hload
  obtain ⟨-, found, hd, rfl, -⟩ := prepareLoad_eq_ok hprep
  rw [hmods] at hm
  obtain ⟨⟨mod, i⟩, hx, rfl⟩ := List.mem_map.mp hm
  have hmod : mod ∈ found := by
    obtain ⟨-, -, hmod⟩ := List.mem_zipIdx hx
    rw [hmod]
    exact List.getElem_mem _
  rw [loadModule_pure]
  have hkeep : (if model.included.contains i then
      { mod with testClasses := acceptedClasses filters ((classFiles t cwd mod).map
        (readClass t cwd)) } else mod).root = mod.root := by
    split <;> rfl
  refine ⟨?_, fun a ha => ?_⟩
  · obtain ⟨ns, hns, hr⟩ := discoverModules_roots hP hd mod hmod
    refine ⟨ns, hns, ?_⟩
    simp only [attributeArtifacts]
    rw [hkeep, hr, hroot]
  · simp only [attributeArtifacts, Module.outputDir, hkeep] at ha ⊢
    have hscan : ∃ k, (a, k) ∈ scanArtifacts t cwd mod.outputDir := by
      rcases List.mem_append.mp ha with ha | ha
      · obtain ⟨⟨p, k⟩, hp, hsome⟩ := List.mem_filterMap.mp ha
        split at hsome <;> cases hsome
        exact ⟨k, hp⟩
      · split at ha
        · obtain ⟨⟨p, k⟩, hp, hsome⟩ := List.mem_filterMap.mp ha
          split at hsome <;> cases hsome
          exact ⟨k, hp⟩
        · cases ha
    obtain ⟨k, hk⟩ := hscan
    exact scanArtifacts_names hP hk

end Names

end Project

namespace Task

/-- A name that a relative path carries unchanged: a proper name without `\`. -/
def PortableName (s : String) : Prop := Path.ProperName s ∧ '\\' ∉ s.toList

instance : DecidablePred PortableName := fun s =>
  inferInstanceAs (Decidable (Path.ProperName s ∧ '\\' ∉ s.toList))

theorem PortableName.proper {ns : List String} (hns : ∀ n ∈ ns, PortableName n) :
    ∀ n ∈ ns, Path.ProperName n :=
  fun n hn => (hns n hn).1

theorem map_backslash_of_not_mem {s : String} (hs : '\\' ∉ s.toList) :
    s.map (fun c => if c = '\\' then '/' else c) = s := by
  rw [String.ext_iff, String.toList_map]
  refine (List.map_congr_left fun c hc => ?_).trans (List.map_id _)
  have hc' : c ≠ '\\' := fun h => hs (h ▸ hc)
  simp [hc']

theorem backslash_not_mem_intercalate :
    ∀ {ns : List String}, (∀ n ∈ ns, '\\' ∉ n.toList) → '\\' ∉ ("/".intercalate ns).toList
  | [], _ => by simp
  | [n], h => by simpa using h n List.mem_cons_self
  | n :: m :: ns, h => by
    rw [String.intercalate_cons_cons]
    simp only [String.toList_append, List.mem_append, not_or]
    exact ⟨⟨h n List.mem_cons_self, by decide⟩,
      backslash_not_mem_intercalate fun x hx => h x (List.mem_cons_of_mem n hx)⟩

section Relative

variable {root : Path} {ns : List String} (hroot : root.text ≠ "")
  (hns : ∀ n ∈ ns, PortableName n)
include hroot hns

theorem relative_joinAll : relative root (root.joinAll ns) = "/".intercalate ns := by
  unfold relative
  rw [Path.stripPrefix?_joinAll hroot (PortableName.proper hns), Option.getD_some,
    Path.ofComponents_normal_text (PortableName.proper hns), Text.Utf8.lossy_bytes]
  exact map_backslash_of_not_mem (backslash_not_mem_intercalate fun n hn => (hns n hn).2)

theorem join_relative_joinAll (hne : ns ≠ []) :
    root.join (relative root (root.joinAll ns)) = root.joinAll ns := by
  rw [relative_joinAll hroot hns,
    Path.joinAll_eq_join_intercalate root hne (PortableName.proper hns)]

theorem relativeDir_joinAll (hne : ns ≠ []) :
    relativeDir root (root.joinAll ns) = "/".intercalate ns ++ "/" := by
  unfold relativeDir
  dsimp only
  rw [relative_joinAll hroot hns, Path.intercalate_endsWith_slash hne (PortableName.proper hns)]
  rfl

theorem join_relativeDir_joinAll (hne : ns ≠ []) :
    root.join (relativeDir root (root.joinAll ns)) = ⟨(root.joinAll ns).text ++ "/"⟩ := by
  have hproper := PortableName.proper hns
  rw [relativeDir_joinAll hroot hns hne,
    Path.join_append_slash root (Path.intercalate_ne_empty hne hproper)
      (Path.intercalate_startsWith_slash hproper),
    ← Path.joinAll_eq_join_intercalate root hne hproper]

end Relative

/-- What an entry of a files list is built from: a compiled class directory or a jar. -/
inductive Artifact
  | dir (path : Path)
  | jar (path : Path)
deriving DecidableEq

namespace Artifact

def path : Artifact → Path
  | dir p => p
  | jar p => p

def isDir : Artifact → Bool
  | dir _ => true
  | jar _ => false

def entry (root : Path) : Artifact → String
  | dir p => relativeDir root p
  | jar p => relative root p

def resolved : Artifact → Path
  | dir p => ⟨p.text ++ "/"⟩
  | jar p => p

end Artifact

/-- The artifacts the tests of module `m` ship, in the order of its needed files: its compiled
directories that are directories, its runtime jars, those of every module with another root,
and the test jars of every included module. -/
def shippedArtifacts (t : Tree) (cwd : List String) (model : ProjectModel) (m : Module) :
    List Artifact :=
  (compiledDirs.filter fun d => t.isDir cwd (m.outputDir.join d).text).map
      (fun d => .dir (m.outputDir.join d)) ++
    (m.sourceArtifacts ++
      (model.modules.filter fun o => o.root.components ≠ m.root.components).flatMap
        (·.sourceArtifacts) ++
      model.includedModules.flatMap (·.testArtifacts)).map .jar

/-- The files list of the tests of module `m`: the entries of its shipped artifacts, each repeat
of an earlier entry dropped. -/
def taskFiles (t : Tree) (cwd : List String) (model : ProjectModel) (m : Module) : List String :=
  ((shippedArtifacts t cwd model m).map (Artifact.entry model.root)).eraseDups

theorem neededFiles_eq_map (t : Tree) (cwd : List String) (model : ProjectModel) (m : Module) :
    neededFiles t cwd model m =
      (shippedArtifacts t cwd model m).map (Artifact.entry model.root) := by
  simp [neededFiles, shippedArtifacts, Artifact.entry, Function.comp_def]

section Located

variable {t : Tree} (hP : ∀ x ∈ t.entries, ∀ n ∈ x.1, PortableName n) {cwd : List String}
  {root : Path} {options : ProjectOptions} {model : ProjectModel}
  (hload : ProjectModel.load t cwd root options = .ok model)
include hP hload

theorem outputDir_of_load {m : Module} (hm : m ∈ model.modules) :
    ∃ ns, (∀ n ∈ ns, PortableName n) ∧ m.outputDir = model.root.joinAll ns := by
  obtain ⟨⟨ns, hns, hroot⟩, -⟩ := module_paths_of_load hP hload hm
  refine ⟨ns ++ [outputDirName], fun n hn => ?_, ?_⟩
  · rcases List.mem_append.mp hn with hn | hn
    · exact hns n hn
    · rw [List.mem_singleton.mp hn]
      decide
  · rw [Path.joinAll_append, ← hroot]
    rfl

theorem shippedArtifacts_below_root {m : Module} (hm : m ∈ model.modules) :
    ∀ a ∈ shippedArtifacts t cwd model m,
      ∃ ns, ns ≠ [] ∧ (∀ n ∈ ns, PortableName n) ∧ a.path = model.root.joinAll ns := by
  have hbelow : ∀ o ∈ model.modules, ∀ n, PortableName n → ∃ ns, ns ≠ [] ∧
      (∀ n ∈ ns, PortableName n) ∧ o.outputDir.join n = model.root.joinAll ns := by
    intro o ho n hn
    obtain ⟨ns, hns, hout⟩ := outputDir_of_load hP hload ho
    refine ⟨ns ++ [n], by simp, fun x hx => ?_, by rw [Path.joinAll_append, ← hout]; rfl⟩
    rcases List.mem_append.mp hx with hx | hx
    · exact hns x hx
    · rw [List.mem_singleton.mp hx]
      exact hn
  have hjar : ∀ o ∈ model.modules, ∀ a ∈ o.sourceArtifacts ++ o.testArtifacts, ∃ ns, ns ≠ [] ∧
      (∀ n ∈ ns, PortableName n) ∧ a = model.root.joinAll ns := by
    intro o ho a ha
    obtain ⟨n, hn, rfl⟩ := (module_paths_of_load hP hload ho).2 a ha
    exact hbelow o ho n hn
  intro a ha
  simp only [shippedArtifacts, List.mem_append, List.mem_map, List.mem_filter,
    List.mem_flatMap] at ha
  rcases ha with ⟨d, ⟨hd, -⟩, rfl⟩ | ⟨p, hp, rfl⟩
  · have hdn : PortableName d := by
      simp only [compiledDirs, List.mem_cons, List.not_mem_nil, or_false] at hd
      rcases hd with rfl | rfl <;> decide
    exact hbelow m hm d hdn
  · rcases hp with (hp | ⟨o, ⟨ho, -⟩, hp⟩) | ⟨o, ho, hp⟩
    · exact hjar m hm p (List.mem_append_left _ hp)
    · exact hjar o ho p (List.mem_append_left _ hp)
    · exact hjar o (mem_modules_of_included ho) p (List.mem_append_right _ hp)

end Located

section Entries

variable {root : Path} (hroot : root.text ≠ "") {a : Artifact} {ns : List String}
  (hne : ns ≠ []) (hns : ∀ n ∈ ns, PortableName n) (ha : a.path = root.joinAll ns)
include hroot hne hns ha

theorem Artifact.join_entry : root.join (a.entry root) = a.resolved := by
  cases a with
  | dir p =>
    cases ha
    exact join_relativeDir_joinAll hroot hns hne
  | jar p =>
    cases ha
    exact join_relative_joinAll hroot hns hne

theorem Artifact.entry_endsWith_slash : (a.entry root).endsWith "/" = a.isDir := by
  cases a with
  | dir p =>
    have hp : p = root.joinAll ns := ha
    subst hp
    rw [entry, relativeDir_joinAll hroot hns hne]
    simp [isDir, ← String.endsWith_toSlice]
  | jar p =>
    have hp : p = root.joinAll ns := ha
    subst hp
    rw [entry, relative_joinAll hroot hns, isDir]
    exact Path.intercalate_endsWith_slash hne (PortableName.proper hns)

end Entries

/-- Artifacts below the root with the same entry are the same artifact. -/
theorem Artifact.eq_of_entry_eq {root : Path} (hroot : root.text ≠ "") {a b : Artifact}
    {ns ms : List String} (hne : ns ≠ []) (hns : ∀ n ∈ ns, PortableName n)
    (ha : a.path = root.joinAll ns) (hme : ms ≠ []) (hms : ∀ n ∈ ms, PortableName n)
    (hb : b.path = root.joinAll ms) (h : a.entry root = b.entry root) : a = b := by
  have hdir : a.isDir = b.isDir := by
    rw [← entry_endsWith_slash hroot hne hns ha, h, entry_endsWith_slash hroot hme hms hb]
  have hres : a.resolved = b.resolved := by
    rw [← join_entry hroot hne hns ha, h, join_entry hroot hme hms hb]
  cases a with
  | dir p =>
    cases b with
    | dir q =>
      obtain ⟨p⟩ := p
      obtain ⟨q⟩ := q
      simp only [resolved, Path.mk.injEq, String.append_left_inj] at hres
      rw [hres]
    | jar q => cases hdir
  | jar p =>
    cases b with
    | dir q => cases hdir
    | jar q => rw [show p = q from hres]

def classpathEntries (cp : String) : List String :=
  (cp.toList.splitOn ':').map String.ofList

/-- Splitting the files joined by `:` gives them back exactly when there is at least one and
none holds a `:`. -/
theorem classpathEntries_intercalate (files : List String) :
    classpathEntries (":".intercalate files) = files ↔
      files ≠ [] ∧ ∀ f ∈ files, ':' ∉ f.toList := by
  constructor
  · intro h
    refine ⟨?_, fun f hf => ?_⟩
    · rintro rfl
      simp [classpathEntries] at h
    · rw [← h] at hf
      obtain ⟨y, hy, rfl⟩ := List.mem_map.mp hf
      simpa using not_mem_of_mem_splitOn hy
  · rintro ⟨hne, hfiles⟩
    have hsep : ":".toList = [':'] := rfl
    unfold classpathEntries
    rw [String.toList_intercalate, hsep,
      List.splitOn_intercalate ':' (by simpa using hfiles) (by simpa using hne)]
    simp [Function.comp_def]

/-- Packaging a loaded project into an empty work directory writes, into the `.isolate` file of
each test, the files list of its module and the command running the test runner on those files
joined by `:`. When every name of the tree is portable, each entry joined back to the root
names the compiled directory (with a final `/`) or the jar it was built from, and distinct
artifacts give distinct entries. Split at `:`, the class path gives back the files exactly when
there is at least one and none holds a `:`. -/
theorem package_files_read_back {config : Config.Settings} {t t' : Tree} {cwd pw : List String}
    {root workDir : Path} {options : ProjectOptions} {model : ProjectModel}
    {tasks : List PackagedTest} (hload : ProjectModel.load t cwd root options = .ok model)
    (hwork : t.readDir cwd workDir.text = .ok (pw, []))
    (hpkg : (TaskPackager.ofConfig config).package t cwd model workDir = .ok (t', tasks)) :
    List.Forall₂ (fun (mc : Module × ClassDescriptor) task =>
      t'.readBytes cwd task.isolateFile.text = .ok (Text.Utf8.bytes (Value.pretty 0
        (.obj [("variables", .obj [
          ("command", strings [config.java, "-cp", ":".intercalate (taskFiles t cwd model mc.1),
            config.junitRunner, mc.2.className]),
          ("files", strings (taskFiles t cwd model mc.1))])]))) ∧
      ((∀ x ∈ t.entries, ∀ n ∈ x.1, PortableName n) →
        (∀ f ∈ taskFiles t cwd model mc.1, ∃ a ∈ shippedArtifacts t cwd model mc.1,
          a.entry model.root = f ∧ model.root.join f = a.resolved) ∧
        ∀ a ∈ shippedArtifacts t cwd model mc.1, ∀ b ∈ shippedArtifacts t cwd model mc.1,
          a.entry model.root = b.entry model.root → a = b) ∧
      (classpathEntries (":".intercalate (taskFiles t cwd model mc.1)) =
          taskFiles t cwd model mc.1 ↔
        taskFiles t cwd model mc.1 ≠ [] ∧ ∀ f ∈ taskFiles t cwd model mc.1, ':' ∉ f.toList))
      (packagedClasses model) tasks := by
  have hroot : model.root.text ≠ "" := by
    rw [root_of_load hload]
    exact Path.text_normalizeRoot_ne root
  have hiso := List.forall₂_and_left (p := (· ∈ packagedClasses model)) _ _ |>.mpr
    ⟨fun _ hmc => hmc, package_isolates_of_load hload hwork hpkg⟩
  refine hiso.imp fun mc task ⟨hmc, hbytes⟩ =>
    ⟨?_, fun hP => ⟨fun f hf => ?_, fun a ha b hb h => ?_⟩, classpathEntries_intercalate _⟩
  · rw [hbytes, neededFiles_eq_map]
    rfl
  -- every shipped artifact lies below the root, where its entry reads back
  all_goals have hm := mem_modules_of_included (mem_packagedClasses.mp hmc).1
  · obtain ⟨a, ha, rfl⟩ := List.mem_map.mp (List.mem_eraseDups.mp hf)
    obtain ⟨ns, hne, hns, hpath⟩ := shippedArtifacts_below_root hP hload hm a ha
    exact ⟨a, ha, rfl, Artifact.join_entry hroot hne hns hpath⟩
  · obtain ⟨ns, hne, hns, hpa⟩ := shippedArtifacts_below_root hP hload hm a ha
    obtain ⟨ms, hme, hms, hpb⟩ := shippedArtifacts_below_root hP hload hm b hb
    exact Artifact.eq_of_entry_eq hroot hne hns hpa hme hms hpb h

theorem package_files_read_back_sample :
    (∀ x ∈ twoModuleSample.entries, ∀ n ∈ x.1, PortableName n) ∧
    ∃ model t' tasks, ProjectModel.load twoModuleSample [] ⟨"/p"⟩ {} = .ok model ∧
      twoModuleSample.readDir [] "/w" = .ok (["w"], []) ∧
      (TaskPackager.ofConfig {}).package twoModuleSample [] model ⟨"/w"⟩ = .ok (t', tasks) ∧
      List.Forall₂ (fun (mc : Module × ClassDescriptor) task =>
        t'.readBytes [] task.isolateFile.text = .ok (Text.Utf8.bytes (Value.pretty 0
          (.obj [("variables", .obj [
            ("command", strings [({} : Config.Settings).java, "-cp",
              ":".intercalate (taskFiles twoModuleSample [] model mc.1),
              ({} : Config.Settings).junitRunner, mc.2.className]),
            ("files", strings (taskFiles twoModuleSample [] model mc.1))])]))) ∧
        ((∀ x ∈ twoModuleSample.entries, ∀ n ∈ x.1, PortableName n) →
          (∀ f ∈ taskFiles twoModuleSample [] model mc.1,
            ∃ a ∈ shippedArtifacts twoModuleSample [] model mc.1,
              a.entry model.root = f ∧ model.root.join f = a.resolved) ∧
          ∀ a ∈ shippedArtifacts twoModuleSample [] model mc.1,
            ∀ b ∈ shippedArtifacts twoModuleSample [] model mc.1,
              a.entry model.root = b.entry model.root → a = b) ∧
        (classpathEntries (":".intercalate (taskFiles twoModuleSample [] model mc.1)) =
            taskFiles twoModuleSample [] model mc.1 ↔
          taskFiles twoModuleSample [] model mc.1 ≠ [] ∧
            ∀ f ∈ taskFiles twoModuleSample [] model mc.1, ':' ∉ f.toList))
        (packagedClasses model) tasks := by
  obtain ⟨model, t', tasks, hload, hwork, hpkg⟩ := twoModuleSample_packages
  exact ⟨by decide +kernel, model, t', tasks, hload, hwork, hpkg,
    package_files_read_back hload hwork hpkg⟩

theorem isolate_of_one_class {t t' : Tree} {model : ProjectModel} {m : Module}
    {c : ClassDescriptor} {task : PackagedTest} {files : List String}
    (hload : ProjectModel.load t [] ⟨"/p"⟩ {} = .ok model)
    (hwork : t.readDir [] "/w" = .ok (["w"], []))
    (hpkg : (TaskPackager.ofConfig {}).package t [] model ⟨"/w"⟩ = .ok (t', [task]))
    (hclasses : packagedClasses model = [(m, c)])
    (hfiles : (neededFiles t [] model m).eraseDups = files) :
    t'.readBytes [] task.isolateFile.text = .ok (Text.Utf8.bytes
      (((TaskPackager.ofConfig {}).isolateDoc files c.className).pretty 0)) := by
  have hiso := package_isolates_of_load hload hwork hpkg
  rw [hclasses] at hiso
  obtain ⟨hbytes, -⟩ := List.forall₂_cons.mp hiso
  rwa [hfiles] at hbytes

/-- A project whose output directory holds, beside the test classes, a jar named with a `\` and
one named with a `:`; and an empty work directory. -/
def escapedJarSample : Tree :=
  ⟨[(["p"], .dir), (["w"], .dir), (["p", "pom.xml"], .file [] 420), (["p", "target"], .dir),
    (["p", "target", "test-classes"], .dir),
    (["p", "target", "test-classes", "ATest.class"],
      .file (classBytes "ATest" defaultFlags) 420),
    (["p", "target", "a\\b.jar"], .file [] 420), (["p", "target", "c:d.jar"], .file [] 420)]⟩

def escapedModule : Module :=
  ⟨⟨"/p/"⟩, "p", [⟨⟨"/p/target/test-classes/ATest.class"⟩, "ATest", false, false⟩],
    [⟨"/p/target/a\\b.jar"⟩, ⟨"/p/target/c:d.jar"⟩], []⟩

def bareSample : Tree :=
  ⟨[(["p"], .dir), (["w"], .dir), (["p", "pom.xml"], .file [] 420), (["p", "target"], .dir),
    (["p", "target", "ATest.class"], .file (classBytes "ATest" defaultFlags) 420)]⟩

def bareModule : Module :=
  ⟨⟨"/p/"⟩, "p", [⟨⟨"/p/target/ATest.class"⟩, "ATest", false, false⟩], [], []⟩

/-- Packaging `escapedJarSample` writes the files `target/test-classes/`, `target/a/b.jar` and
`target/c:d.jar`: joined to the root, no entry names the jar `a\b.jar` that the module ships,
and the class path split at `:` gives four entries. Packaging `bareSample` writes no file, and
its empty class path splits into one empty entry. -/
theorem classpath_misreads_entries :
    (ProjectModel.load escapedJarSample [] ⟨"/p"⟩ {} = .ok ⟨⟨"/p/"⟩, [escapedModule], [0]⟩ ∧
      ∃ t', (TaskPackager.ofConfig {}).package escapedJarSample []
          ⟨⟨"/p/"⟩, [escapedModule], [0]⟩ ⟨"/w"⟩ = .ok (t', [taskAt ⟨"/w"⟩ "ATest"]) ∧
        t'.readBytes [] "/w/ATest.isolate" = .ok (Text.Utf8.bytes
          (((TaskPackager.ofConfig {}).isolateDoc
            ["target/test-classes/", "target/a/b.jar", "target/c:d.jar"] "ATest").pretty 0)) ∧
        ⟨"/p/target/a\\b.jar"⟩ ∈ escapedModule.sourceArtifacts ∧
        (∀ f ∈ ["target/test-classes/", "target/a/b.jar", "target/c:d.jar"],
          (Path.mk "/p/").join f ≠ ⟨"/p/target/a\\b.jar"⟩) ∧
        classpathEntries (":".intercalate
            ["target/test-classes/", "target/a/b.jar", "target/c:d.jar"]) =
          ["target/test-classes/", "target/a/b.jar", "target/c", "d.jar"]) ∧
    (ProjectModel.load bareSample [] ⟨"/p"⟩ {} = .ok ⟨⟨"/p/"⟩, [bareModule], [0]⟩ ∧
      ∃ t', (TaskPackager.ofConfig {}).package bareSample [] ⟨⟨"/p/"⟩, [bareModule], [0]⟩
          ⟨"/w"⟩ = .ok (t', [taskAt ⟨"/w"⟩ "ATest"]) ∧
        t'.readBytes [] "/w/ATest.isolate" = .ok (Text.Utf8.bytes
          (((TaskPackager.ofConfig {}).isolateDoc [] "ATest").pretty 0)) ∧
        classpathEntries (":".intercalate []) = [""]) := by
  have hpath : (taskAt ⟨"/w"⟩ "ATest").isolateFile.text = "/w/ATest.isolate" := by
    decide +kernel
  constructor
  · have hload : ProjectModel.load escapedJarSample [] ⟨"/p"⟩ {} =
        .ok ⟨⟨"/p/"⟩, [escapedModule], [0]⟩ :=
      Except.eq_ok_of_toOption (by decide +kernel)
    have hrun : ((TaskPackager.ofConfig {}).package escapedJarSample []
        ⟨⟨"/p/"⟩, [escapedModule], [0]⟩ ⟨"/w"⟩).toOption.any
        (fun r => decide (r.2 = [taskAt ⟨"/w"⟩ "ATest"])) = true := by
      decide +kernel
    obtain ⟨⟨t', tasks⟩, hpkg, htasks⟩ := Except.exists_ok_of_any hrun
    obtain rfl : tasks = [taskAt ⟨"/w"⟩ "ATest"] := of_decide_eq_true htasks
    have hfiles : (neededFiles escapedJarSample [] ⟨⟨"/p/"⟩, [escapedModule], [0]⟩
        escapedModule).eraseDups = ["target/test-classes/", "target/a/b.jar", "target/c:d.jar"] := by
      decide +kernel
    have hbytes := isolate_of_one_class hload (Except.eq_ok_of_toOption (by decide +kernel)) hpkg
      rfl hfiles
    rw [hpath] at hbytes
    exact ⟨hload, t', hpkg, hbytes, by decide, by decide +kernel, by decide +kernel⟩
  · have hload : ProjectModel.load bareSample [] ⟨"/p"⟩ {} = .ok ⟨⟨"/p/"⟩, [bareModule], [0]⟩ :=
      Except.eq_ok_of_toOption (by decide +kernel)
    have hrun : ((TaskPackager.ofConfig {}).package bareSample []
        ⟨⟨"/p/"⟩, [bareModule], [0]⟩ ⟨"/w"⟩).toOption.any
        (fun r => decide (r.2 = [taskAt ⟨"/w"⟩ "ATest"])) = true := by
      decide +kernel
    obtain ⟨⟨t', tasks⟩, hpkg, htasks⟩ := Except.exists_ok_of_any hrun
    obtain rfl : tasks = [taskAt ⟨"/w"⟩ "ATest"] := of_decide_eq_true htasks
    have hfiles : (neededFiles bareSample [] ⟨⟨"/p/"⟩, [bareModule], [0]⟩ bareModule).eraseDups =
        [] := by
      decide +kernel
    have hbytes := isolate_of_one_class hload (Except.eq_ok_of_toOption (by decide +kernel)) hpkg
      rfl hfiles
    rw [hpath] at hbytes
    exact ⟨hload, t', hpkg, hbytes, by decide⟩

end Task

end TestDispatch
