import TestDispatch.Proofs.Task.Naming
import TestDispatch.Proofs.Except
/-! Packaging, class by class: every successful packaging names its tasks by the tiered rule, in
module then class order, with distinct names and distinct files. -/
namespace TestDispatch.Task

open TestDispatch.Fs TestDispatch.Project TestDispatch.Classfile

def taskAt (workDir : Path) (name : String) : PackagedTest :=
  ⟨name, workDir.join (name ++ ".isolate"), workDir.join (name ++ ".isolated.gen.json")⟩

section Files

variable {p : TaskPackager} {t t' : Tree} {cwd : List String} {root workDir : Path}
  {name : String} {c : ClassDescriptor} {files : List String}

/-- A task is written as its `.isolate` file, then its `.isolated.gen.json` file, and records
its name and those two files in the work directory. -/
theorem writeTask_writes {test : PackagedTest}
    (h : p.writeTask t cwd root workDir name c files = .ok (t', test)) :
    ∃ t₁, t.writeFile cwd (workDir.join (name ++ ".isolate")).text
        (Text.Utf8.bytes ((p.isolateDoc files c.className).pretty 0)) = .ok t₁ ∧
      t₁.writeFile cwd (workDir.join (name ++ ".isolated.gen.json")).text
        (Text.Utf8.bytes ((TaskPackager.genDoc root (workDir.join (name ++ ".isolate"))
          (workDir.join (name ++ ".isolated"))).pretty 0)) = .ok t' ∧
      test = taskAt workDir name := by
  unfold TaskPackager.writeTask at h
  obtain ⟨t₁, h₁, h⟩ := Except.bind_eq_ok.mp h
  obtain ⟨t₂, h₂, h⟩ := Except.bind_eq_ok.mp h
  simp only [Except.pure_def, Except.ok.injEq, Prod.mk.injEq] at h
  obtain ⟨rfl, rfl⟩ := h
  exact ⟨t₁, Except.mapError_eq_ok.mp h₁, Except.mapError_eq_ok.mp h₂, rfl⟩

theorem writeTask_eq_ok {test : PackagedTest}
    (h : p.writeTask t cwd root workDir name c files = .ok (t', test)) :
    test = taskAt workDir name := by
  obtain ⟨-, -, -, htest⟩ := writeTask_writes h
  exact htest

theorem packageClass_writes {moduleName : String} {used : List String}
    {done : List PackagedTest} {acc : Tree × List String × List PackagedTest}
    (h : p.packageClass cwd root workDir moduleName files (t, used, done) c = .ok acc) :
    ∃ t₁, p.writeTask t cwd root workDir (uniqueName used c.className moduleName) c files =
        .ok (t₁, taskAt workDir (uniqueName used c.className moduleName)) ∧
      acc = (t₁, used ++ [uniqueName used c.className moduleName],
        done ++ [taskAt workDir (uniqueName used c.className moduleName)]) := by
  unfold TaskPackager.packageClass at h
  obtain ⟨⟨t₁, test⟩, hwrite, h⟩ := Except.bind_eq_ok.mp h
  obtain rfl := writeTask_eq_ok hwrite
  simp only [Except.pure_def, Except.ok.injEq] at h
  exact ⟨t₁, hwrite, h.symm⟩

end Files

/-- The tasks `tasks` package the classes `classes` (class name and module name): one each, in
order, the `i`-th named by the tiered rule against the names of the tasks before it with its
counter at most `i`; the names are distinct; and each task's two files are `<name>.isolate`
and `<name>.isolated.gen.json` in the work directory. -/
def NamedTasks (workDir : Path) (classes : List (String × String)) (tasks : List PackagedTest) :
    Prop :=
  tasks.length = classes.length ∧
  (∀ i (hi : i < tasks.length) base moduleName, classes[i]? = some (base, moduleName) →
    ∃ n ≤ i, TaskName ((tasks.take i).map (·.name)) base moduleName n tasks[i].name) ∧
  (tasks.map (·.name)).Nodup ∧
  ∀ task ∈ tasks, task.isolateFile = workDir.join (task.name ++ ".isolate") ∧
    task.genFile = workDir.join (task.name ++ ".isolated.gen.json")

theorem NamedTasks.nil (workDir : Path) : NamedTasks workDir [] [] := by
  simp [NamedTasks]

theorem NamedTasks.snoc {workDir : Path} {classes : List (String × String)}
    {done : List PackagedTest} (hinv : NamedTasks workDir classes done) (base moduleName : String) :
    NamedTasks workDir (classes ++ [(base, moduleName)])
      (done ++ [taskAt workDir (uniqueName (done.map (·.name)) base moduleName)]) := by
  obtain ⟨hlen, hnamed, hnodup, hfiles⟩ := hinv
  refine ⟨by simp [hlen], fun i hi base' moduleName' hcls => ?_, ?_, ?_⟩
  -- an earlier task keeps its name and what came before it; the new one is named against all
  · rcases Nat.lt_or_ge i done.length with hlt | hge
    · have hcls' : classes[i]? = some (base', moduleName') := by
        rwa [List.getElem?_append_left (by omega)] at hcls
      obtain ⟨n, hn, hname⟩ := hnamed i hlt base' moduleName' hcls'
      refine ⟨n, hn, ?_⟩
      rw [List.getElem_append_left hlt, List.take_append_of_le_length (by omega)]
      exact hname
    · have hi' : i = done.length := by simp at hi; omega
      subst hi'
      rw [List.getElem?_append_right (by omega), hlen, Nat.sub_self] at hcls
      simp only [List.getElem?_cons_zero, Option.some.injEq, Prod.mk.injEq] at hcls
      obtain ⟨rfl, rfl⟩ := hcls
      obtain ⟨n, hn, hname⟩ := uniqueName_spec (done.map (·.name)) base moduleName
      refine ⟨n, by simpa using hn, ?_⟩
      simpa [List.take_left', taskAt] using hname
  · rw [List.map_append, List.nodup_append]
    refine ⟨hnodup, List.nodup_singleton _, ?_⟩
    simp only [List.map_cons, List.map_nil, List.mem_singleton]
    rintro x hx y rfl rfl
    exact uniqueName_not_mem _ _ _ hx
  · intro task hmem
    rcases List.mem_append.mp hmem with hmem | hmem
    · exact hfiles task hmem
    · rw [List.mem_singleton.mp hmem]
      exact ⟨rfl, rfl⟩

theorem packageClass_eq_ok {p : TaskPackager} {cwd : List String} {root workDir : Path}
    {moduleName : String} {files : List String} {t : Tree} {done : List PackagedTest}
    {c : ClassDescriptor} {acc : Tree × List String × List PackagedTest}
    (h : p.packageClass cwd root workDir moduleName files (t, done.map (·.name), done) c = .ok acc) :
    acc.2 = ((done ++ [taskAt workDir (uniqueName (done.map (·.name)) c.className moduleName)]).map
        (·.name), done ++ [taskAt workDir (uniqueName (done.map (·.name)) c.className moduleName)]) := by
  obtain ⟨t', -, rfl⟩ := packageClass_writes h
  simp [taskAt]

theorem foldlM_packageClass {p : TaskPackager} {cwd : List String} {root workDir : Path}
    {moduleName : String} {files : List String} (cs : List ClassDescriptor) :
    ∀ {classes : List (String × String)} {t : Tree} {done : List PackagedTest}
      {acc : Tree × List String × List PackagedTest},
      NamedTasks workDir classes done →
      cs.foldlM (p.packageClass cwd root workDir moduleName files) (t, done.map (·.name), done) =
        .ok acc →
      acc.2.1 = acc.2.2.map (·.name) ∧
        NamedTasks workDir (classes ++ cs.map fun c => (c.className, moduleName)) acc.2.2 := by
  intro classes t done acc hinv h
  let I (pre : List ClassDescriptor) (acc : Tree × List String × List PackagedTest) : Prop :=
    acc.2.1 = acc.2.2.map (·.name) ∧
      NamedTasks workDir (classes ++ pre.map fun c => (c.className, moduleName)) acc.2.2
  have hstep : ∀ pre, ∀ c ∈ cs, ∀ a a', I pre a →
      p.packageClass cwd root workDir moduleName files a c = .ok a' → I (pre ++ [c]) a' := by
    rintro pre c - ⟨u, used, done'⟩ acc' ⟨hused, hnamed⟩ hrun
    simp only at hused
    subst hused
    show acc'.2.1 = _ ∧ _
    rw [packageClass_eq_ok hrun]
    simpa using hnamed.snoc c.className moduleName
  exact Except.foldlM_invariant I hstep ⟨rfl, by simpa using hinv⟩ h

theorem packageModule_eq_ok {p : TaskPackager} {cwd : List String} {model : ProjectModel}
    {workDir : Path} {classes : List (String × String)} {t : Tree} {done : List PackagedTest}
    {m : Module} {acc : Tree × List String × List PackagedTest}
    (hinv : NamedTasks workDir classes done)
    (h : p.packageModule cwd model workDir (t, done.map (·.name), done) m = .ok acc) :
    acc.2.1 = acc.2.2.map (·.name) ∧
      NamedTasks workDir (classes ++ m.testClasses.map fun c => (c.className, m.name)) acc.2.2 := by
  unfold TaskPackager.packageModule at h
  split at h
  · rename_i hempty
    simp only [Except.ok.injEq] at h
    subst h
    simpa [List.isEmpty_iff.mp hempty] using hinv
  · exact foldlM_packageClass m.testClasses hinv h

theorem foldlM_packageModule {p : TaskPackager} {cwd : List String} {model : ProjectModel}
    {workDir : Path} (mods : List Module) :
    ∀ {classes : List (String × String)} {t : Tree} {done : List PackagedTest}
      {acc : Tree × List String × List PackagedTest},
      NamedTasks workDir classes done →
      mods.foldlM (p.packageModule cwd model workDir) (t, done.map (·.name), done) = .ok acc →
      acc.2.1 = acc.2.2.map (·.name) ∧
        NamedTasks workDir
          (classes ++ mods.flatMap fun m => m.testClasses.map fun c => (c.className, m.name))
          acc.2.2 := by
  intro classes t done acc hinv h
  let I (pre : List Module) (acc : Tree × List String × List PackagedTest) : Prop :=
    acc.2.1 = acc.2.2.map (·.name) ∧ NamedTasks workDir
      (classes ++ pre.flatMap fun m => m.testClasses.map fun c => (c.className, m.name)) acc.2.2
  have hstep : ∀ pre, ∀ m ∈ mods, ∀ c c', I pre c →
      p.packageModule cwd model workDir c m = .ok c' → I (pre ++ [m]) c' := by
    rintro pre m - ⟨u, used, done'⟩ acc' ⟨hused, hnamed⟩ hrun
    simp only at hused
    subst hused
    have := packageModule_eq_ok hnamed hrun
    simpa [I] using this
  exact Except.foldlM_invariant I hstep ⟨rfl, by simpa using hinv⟩ h

section Paths

theorem isAbsolute_eq_false {s : String} (h : s.toList.head? ≠ some '/') :
    (Path.mk s).isAbsolute = false := by
  rw [Path.isAbsolute, Bool.eq_false_iff, Ne, String.startsWith_string_iff]
  intro hpre
  obtain ⟨rest, hrest⟩ := hpre
  apply h
  rw [← hrest]
  rfl

theorem join_inj {dir : Path} {a b : String} (ha : (Path.mk a).isAbsolute = false)
    (hb : (Path.mk b).isAbsolute = false) (h : dir.join a = dir.join b) : a = b := by
  unfold Path.join Path.push at h
  simp only [ha, hb, Bool.false_eq_true, if_false] at h
  by_cases hc : dir.text = "" ∨ dir.text.endsWith "/" = true
  · simpa [hc] using h
  · simpa [hc] using h

theorem head?_append_ne_slash {l r : List Char} (hl : l.head? ≠ some '/')
    (hr : r.head? ≠ some '/') : (l ++ r).head? ≠ some '/' := by
  cases l with
  | nil => simpa using hr
  | cons x xs => simpa using hl

theorem TaskName.head?_ne_slash {used : List String} {base moduleName name : String} {n : Nat}
    (h : TaskName used base moduleName n name) (hbase : '/' ∉ base.toList) :
    name.toList.head? ≠ some '/' := by
  have hb : base.toList.head? ≠ some '/' := fun hhead => hbase (List.mem_of_mem_head? hhead)
  cases h with
  | plain _ => exact hb
  | qualified _ _ =>
    simp only [qualifiedName, String.toList_append, List.append_assoc]
    exact head?_append_ne_slash hb (by simp)
  | numbered _ _ _ _ _ =>
    simp only [numberedName, qualifiedName, String.toList_append, List.append_assoc]
    exact head?_append_ne_slash hb (by simp)

theorem isolate_ne_gen (x y : String) : x ++ ".isolate" ≠ y ++ ".isolated.gen.json" := by
  intro h
  have hlast := congrArg (fun s : String => s.toList.getLast?) h
  simp only [String.toList_append, List.getLast?_append] at hlast
  have he : ".isolate".toList.getLast? = some 'e' := by decide
  have hn : ".isolated.gen.json".toList.getLast? = some 'n' := by decide
  rw [he, hn] at hlast
  simp at hlast

theorem taskFile_inj {dir : Path} {x y s s' : String} (hx : x.toList.head? ≠ some '/')
    (hy : y.toList.head? ≠ some '/') (hs : s = ".isolate" ∨ s = ".isolated.gen.json")
    (hs' : s' = ".isolate" ∨ s' = ".isolated.gen.json")
    (h : dir.join (x ++ s) = dir.join (y ++ s')) : x = y ∧ s = s' := by
  have hrel : ∀ z u : String, z.toList.head? ≠ some '/' →
      (u = ".isolate" ∨ u = ".isolated.gen.json") → (Path.mk (z ++ u)).isAbsolute = false := by
    rintro z u hz (rfl | rfl) <;>
      exact isAbsolute_eq_false (by
        rw [String.toList_append]
        exact head?_append_ne_slash hz (by decide))
  have heq := join_inj (hrel x s hx hs) (hrel y s' hy hs') h
  rcases hs with rfl | rfl <;> rcases hs' with rfl | rfl
  · exact ⟨(String.append_left_inj _).mp heq, rfl⟩
  · exact absurd heq (isolate_ne_gen x y)
  · exact absurd heq.symm (isolate_ne_gen y x)
  · exact ⟨(String.append_left_inj _).mp heq, rfl⟩

/-- The `2N` description files of tasks with distinct names, joined below one directory, are
distinct. -/
theorem nodup_taskFiles {workDir : Path} {tasks : List PackagedTest}
    (hnames : (tasks.map (·.name)).Nodup)
    (hfiles : ∀ task ∈ tasks, task.isolateFile = workDir.join (task.name ++ ".isolate") ∧
      task.genFile = workDir.join (task.name ++ ".isolated.gen.json"))
    (hrel : ∀ task ∈ tasks, task.name.toList.head? ≠ some '/') :
    (tasks.flatMap fun task => [task.isolateFile, task.genFile]).Nodup := by
  rw [List.nodup_flatMap]
  refine ⟨fun task hmem => ?_, (List.pairwise_map.mp hnames).imp_of_mem fun ha hb hne => ?_⟩
  · obtain ⟨hi, hg⟩ := hfiles task hmem
    rw [hi, hg, List.nodup_cons, List.mem_singleton]
    refine ⟨fun heq => ?_, List.nodup_singleton _⟩
    have hkind := (taskFile_inj (hrel task hmem) (hrel task hmem) (.inl rfl) (.inr rfl) heq).2
    exact absurd hkind (by decide)
  · rename_i a b
    obtain ⟨hai, hag⟩ := hfiles a ha
    obtain ⟨hbi, hbg⟩ := hfiles b hb
    simp only [Function.onFun]
    rw [hai, hag, hbi, hbg]
    intro x hxa hxb
    simp only [List.mem_cons, List.not_mem_nil, or_false] at hxa hxb
    rcases hxa with rfl | rfl <;> rcases hxb with heq | heq <;>
      exact hne (taskFile_inj (hrel a ha) (hrel b hb) (by simp) (by simp) heq).1

end Paths

/-- The test classes to package, by class name and module name: the included modules in order,
each module's classes in their stored order. -/
def packageOrder (model : ProjectModel) : List (String × String) :=
  model.includedModules.flatMap fun m => m.testClasses.map fun c => (c.className, m.name)

/-- What packaging promises when it succeeds: its tasks package the classes of `packageOrder` as
`NamedTasks` says, and their `2N` description files are distinct, so that no task's files
overwrite another's. -/
def PackagedInOrder (p : TaskPackager) (t : Tree) (cwd : List String) (model : ProjectModel)
    (workDir : Path) : Prop :=
  match p.package t cwd model workDir with
  | .ok (_, tasks) => NamedTasks workDir (packageOrder model) tasks ∧
      (tasks.flatMap fun task => [task.isolateFile, task.genFile]).Nodup
  | .error _ => True

/-- Packaging names every test by the tiered rule, in module then class order, with distinct
names and distinct task files, whenever no class name holds a `/`. -/
theorem package_names_tasks (p : TaskPackager) (t : Tree) (cwd : List String)
    (model : ProjectModel) (workDir : Path)
    (hslash : ∀ m ∈ model.includedModules, ∀ c ∈ m.testClasses, '/' ∉ c.className.toList) :
    PackagedInOrder p t cwd model workDir := by
  unfold PackagedInOrder TaskPackager.package
  cases hrun : model.includedModules.foldlM (p.packageModule cwd model workDir) (t, [], []) with
  | error e => trivial
  | ok acc =>
    obtain ⟨-, hnamed⟩ := foldlM_packageModule model.includedModules (NamedTasks.nil workDir) hrun
    rw [List.nil_append] at hnamed
    refine ⟨hnamed, nodup_taskFiles hnamed.2.2.1 hnamed.2.2.2 fun task hmem => ?_⟩
    obtain ⟨i, hi, rfl⟩ := List.getElem_of_mem hmem
    have hlt : i < (packageOrder model).length := hnamed.1 ▸ hi
    obtain ⟨⟨base, moduleName⟩, hcls⟩ : ∃ x, (packageOrder model)[i]? = some x :=
      ⟨_, List.getElem?_eq_getElem hlt⟩
    obtain ⟨n, -, hname⟩ := hnamed.2.1 i hi base moduleName hcls
    refine hname.head?_ne_slash ?_
    have hmem' := List.mem_of_getElem? hcls
    simp only [packageOrder, List.mem_flatMap, List.mem_map, Prod.mk.injEq] at hmem'
    obtain ⟨m, hm, c, hc, rfl, -⟩ := hmem'
    exact hslash m hm c hc

theorem package_names_colliding_classes :
    (∀ m ∈ ProjectModel.includedModules ⟨⟨"/p"⟩,
        [{ root := ⟨"/p/core"⟩, name := "core",
            testClasses := [⟨⟨"A.class"⟩, "ATest", false, false⟩] },
          { root := ⟨"/p/app"⟩, name := "app",
            testClasses := [⟨⟨"A.class"⟩, "ATest", false, false⟩] }], [0, 1]⟩,
      ∀ c ∈ m.testClasses, '/' ∉ c.className.toList) ∧
    PackagedInOrder ⟨"java", "Runner"⟩ ⟨[]⟩ [] ⟨⟨"/p"⟩,
        [{ root := ⟨"/p/core"⟩, name := "core",
            testClasses := [⟨⟨"A.class"⟩, "ATest", false, false⟩] },
          { root := ⟨"/p/app"⟩, name := "app",
            testClasses := [⟨⟨"A.class"⟩, "ATest", false, false⟩] }], [0, 1]⟩ ⟨"/w"⟩ :=
  ⟨by decide, package_names_tasks _ _ _ _ _ (by decide)⟩

end TestDispatch.Task