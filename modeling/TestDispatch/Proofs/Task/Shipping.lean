import TestDispatch.Proofs.Fs.Resolve
import TestDispatch.Proofs.Project.Fields
import TestDispatch.Proofs.Task.Package
import TestDispatch.Classfile.Encode
/-! What a task ships: a class read below a compiled directory is shipped by its task's
`.isolate` file, and one found elsewhere in the output directory is not. -/
namespace TestDispatch

theorem Path.slash_not_mem_fileName {p : Path} {n : String} (h : p.fileName? = some n) :
    '/' ∉ n.toList := by
  unfold Path.fileName? at h
  split at h
  · rename_i name hlast
    cases h
    have hmem := List.mem_of_getLast? hlast
    have hbody : Component.normal n ∈ p.parts.filterMap Path.bodyComponent := by
      unfold Path.components at hmem
      split at hmem
      · simpa using hmem
      · split at hmem
        · simpa using hmem
        · exact hmem
    obtain ⟨part, hpart, hcomp⟩ := List.mem_filterMap.mp hbody
    have hn : part = n := by
      unfold Path.bodyComponent at hcomp
      split_ifs at hcomp
      · cases hcomp
      · cases hcomp
        rfl
    obtain ⟨y, hy, rfl⟩ := List.mem_map.mp hpart
    rw [← hn, String.toList_ofList]
    exact not_mem_of_mem_splitOn hy
  · cases h

theorem slash_not_mem_toString (k : Nat) : '/' ∉ (toString k).toList := by
  rw [Nat.toString_eq_repr, Nat.toList_repr]
  intro h
  have hdigit := Nat.isDigit_of_mem_toDigits (by decide) (by decide) h
  exact absurd hdigit (by decide)

namespace Project

open TestDispatch.Fs TestDispatch.Classfile

theorem readClass_eq_ok {t : Tree} {cwd : List String} {path : Path} {c : ClassDescriptor}
    (h : readClass t cwd path = .ok c) :
    c.path = path ∧ '/' ∉ c.className.toList ∧ ∃ bytes, t.readBytes cwd path.text = .ok bytes := by
  unfold readClass at h
  split at h
  · rename_i bytes hread
    unfold ClassDescriptor.parse at h
    split at h
    · cases h
      refine ⟨rfl, ?_, bytes, hread⟩
      simp only [ClassDescriptor.ofHeader, String.toList_map, List.mem_map, not_exists, not_and]
      intro c _ hc
      split at hc
      · cases hc
      · exact absurd hc ‹_›
    · cases h
  · cases h

theorem mem_modules_of_load {t : Tree} {cwd : List String} {root : Path}
    {options : ProjectOptions} {model : ProjectModel} {m : Module}
    (hload : ProjectModel.load t cwd root options = .ok model) (hm : m ∈ model.modules) :
    ∃ filters dir, ∃ included : Bool,
      m = Id.run (loadModule (fun p => pure (readClass t cwd p)) t cwd filters included
        (Module.new dir)) := by
  obtain ⟨filters, model₀, hprep, -, hmods⟩ := loadWith_pure_eq_ok (readClass t cwd) hload
  obtain ⟨-, found, hd, rfl, -⟩ := prepareLoad_eq_ok hprep
  rw [hmods] at hm
  obtain ⟨⟨mod, i⟩, hx, rfl⟩ := List.mem_map.mp hm
  have hnew : mod = Module.new mod.root := by
    refine discoverModules_eq_new hd mod ?_
    obtain ⟨-, -, hmod⟩ := List.mem_zipIdx hx
    rw [hmod]
    exact List.getElem_mem _
  exact ⟨filters, mod.root, model.included.contains i, by rw [← hnew]⟩

theorem class_of_load {t : Tree} {cwd : List String} {root : Path}
    {options : ProjectOptions} {model : ProjectModel} {m : Module} {c : ClassDescriptor}
    (hload : ProjectModel.load t cwd root options = .ok model) (hm : m ∈ model.modules)
    (hc : c ∈ m.testClasses) :
    ∃ ns, ClassFileAt t cwd m.outputDir ns ∧ readClass t cwd (m.outputDir.joinAll ns) = .ok c := by
  obtain ⟨filters, dir, included, rfl⟩ := mem_modules_of_load hload hm
  rw [loadModule_pure] at hc ⊢
  cases included with
  | false => simp [attributeArtifacts, Module.new] at hc
  | true =>
    simp only [attributeArtifacts, if_true, acceptedClasses, mem_sortBy, List.mem_filter,
      List.mem_filterMap, List.mem_map] at hc
    obtain ⟨⟨_, ⟨path, hpath, rfl⟩, hread⟩, -⟩ := hc
    rw [classFiles_eq_map] at hpath
    obtain ⟨ns, hns, rfl⟩ := List.mem_map.mp hpath
    refine ⟨ns, mem_classFilesBelow.mp hns, ?_⟩
    show readClass t cwd ((Module.new dir).outputDir.joinAll ns) = .ok c
    cases hr : readClass t cwd ((Module.new dir).outputDir.joinAll ns) <;>
      simp_all [Except.toOption]

theorem isDir_compiledDir {t : Tree} (ht : t.PlainNames) {cwd : List String} {dir : Path}
    {d : String} {rest : List String} {bytes : List UInt8} (hd : d ∈ Task.compiledDirs)
    (hat : ClassFileAt t cwd dir (d :: rest))
    (hread : t.readBytes cwd (dir.joinAll (d :: rest)).text = .ok bytes) :
    t.isDir cwd (dir.join d).text = true := by
  obtain ⟨po, hstat, ⟨b, mode, hbelow⟩, hname⟩ := hat
  have hdir := Tree.resolve_of_stat hstat
  have hdne : dir.text ≠ "" := String.isEmpty_eq_false_iff.mp (Tree.walkable_of_resolve hdir).2.1
  have hplain : '/' ∉ d.toList ∧ d ≠ "" ∧ (d ≠ "." ∧ d ≠ "..") ∧ d.utf8ByteSize ≤ 255 ∧
      d.endsWith classSuffix = false := by
    simp only [Task.compiledDirs, List.mem_cons, List.not_mem_nil, or_false] at hd
    rcases hd with rfl | rfl <;> decide +kernel
  obtain ⟨hs, hne, hdot, hlen, hsuffix⟩ := hplain
  cases hbelow with
  | child hget =>
    rw [Path.joinAll_cons, Path.joinAll_nil, Path.fileName?_join hdne hs hne hdot] at hname
    simp [hsuffix] at hname
  | enter hget hrest =>
    refine Tree.isDir_join hdir hs hne ?_ hdot hlen hget
    -- the compiled directory's text begins the class file's, which resolution accepted
    obtain ⟨x, hx⟩ : ∃ x, ((dir.join d).joinAll rest).text = (dir.join d).text ++ x :=
      Path.text_joinAll (hrest.slash_not_mem ht)
    have hw := Tree.walkable_of_readBytes hread
    rw [Path.joinAll_cons, hx] at hw
    obtain ⟨hnul, -, hsize⟩ := hw
    refine ⟨?_, ?_, ?_⟩
    · rw [String.toList_append, List.contains_append, Bool.or_eq_false_iff] at hnul
      exact hnul.1
    · have hlt : dir.text.length < (dir.join d).text.length := Path.length_join hs hne
      rw [String.isEmpty_eq_false_iff]
      intro hempty
      rw [hempty] at hlt
      simp at hlt
    · rw [String.utf8ByteSize_append] at hsize
      omega

theorem slash_not_mem_name_of_load {t : Tree} {cwd : List String} {root : Path}
    {options : ProjectOptions} {model : ProjectModel} {m : Module}
    (hload : ProjectModel.load t cwd root options = .ok model) (hm : m ∈ model.modules) :
    '/' ∉ m.name.toList := by
  obtain ⟨filters, dir, included, rfl⟩ := mem_modules_of_load hload hm
  have hname : (Id.run (loadModule (fun p => pure (readClass t cwd p)) t cwd filters included
      (Module.new dir))).name = (dir.fileName?).getD "" := by
    rw [loadModule_pure]
    cases included <;> rfl
  rw [hname]
  cases hfile : dir.fileName? with
  | none => simp
  | some n => exact Path.slash_not_mem_fileName hfile

end Project

namespace Task

open TestDispatch.Fs TestDispatch.Project TestDispatch.Classfile

theorem slash_not_mem_uniqueName {used : List String} {base moduleName : String}
    (hbase : '/' ∉ base.toList) (hmodule : '/' ∉ moduleName.toList) :
    '/' ∉ (uniqueName used base moduleName).toList := by
  obtain ⟨n, -, hname⟩ := uniqueName_spec used base moduleName
  generalize uniqueName used base moduleName = name at hname ⊢
  cases hname with
  | plain _ => exact hbase
  | qualified _ _ => simp [qualifiedName, hbase, hmodule]
  | numbered _ _ _ _ _ =>
    have hsep : '/' ∉ "@".toList ∧ '/' ∉ ".".toList := by decide
    simp only [numberedName, qualifiedName, String.toList_append, List.mem_append, hbase, hmodule,
      hsep, slash_not_mem_toString, or_self, not_false_eq_true]

theorem mem_appendNew {x : String} :
    ∀ {acc xs : List String}, x ∈ appendNew acc xs ↔ x ∈ acc ∨ x ∈ xs
  | acc, [] => by simp [appendNew]
  | acc, y :: ys => by
    have hstep : appendNew acc (y :: ys) =
        appendNew (if acc.contains y then acc else acc ++ [y]) ys := rfl
    rw [hstep, mem_appendNew]
    split
    · rename_i hy
      have hy := List.contains_iff_mem.mp hy
      simp only [List.mem_cons]
      constructor
      · rintro (h | h)
        · exact .inl h
        · exact .inr (.inr h)
      · rintro (h | rfl | h)
        · exact .inl h
        · exact .inl hy
        · exact .inr h
    · simp [or_assoc]

theorem relativeDir_mem_moduleFiles {t : Tree} {cwd : List String} {model : ProjectModel}
    {m : Module} {d : String} (hd : d ∈ compiledDirs)
    (hdir : t.isDir cwd (m.outputDir.join d).text = true) :
    relativeDir model.root (m.outputDir.join d) ∈ moduleFiles t cwd model m := by
  unfold moduleFiles
  rw [mem_appendNew]
  refine .inr ?_
  simp only [List.mem_append, List.mem_filterMap]
  exact .inl (.inl (.inl ⟨d, hd, by simp [hdir]⟩))

theorem moduleFiles_congr {t u : Tree} {cwd : List String} (hdirs : ∀ path, u.isDir cwd path = t.isDir cwd path)
    (model : ProjectModel) (m : Module) : moduleFiles u cwd model m = moduleFiles t cwd model m := by
  simp only [moduleFiles, hdirs]

def packagedClasses (model : ProjectModel) : List (Module × ClassDescriptor) :=
  model.includedModules.flatMap fun m => m.testClasses.map (m, ·)

theorem mem_packagedClasses {model : ProjectModel} {mc : Module × ClassDescriptor} :
    mc ∈ packagedClasses model ↔ mc.1 ∈ model.includedModules ∧ mc.2 ∈ mc.1.testClasses := by
  obtain ⟨m, c⟩ := mc
  simp [packagedClasses]

/-- The class `c` of module `m` was read from the class file at the names `ns` below the
module's output directory, and the files of the module list the compiled directory that `ns`
starts in, when it starts in one. -/
def ShipsFrom (t : Tree) (cwd : List String) (model : ProjectModel) (m : Module)
    (c : ClassDescriptor) : Prop :=
  ∃ ns, ClassFileAt t cwd m.outputDir ns ∧ c.path = m.outputDir.joinAll ns ∧
    ∀ d ∈ compiledDirs, ns.head? = some d → relativeDir model.root (m.outputDir.join d) ∈
      moduleFiles t cwd model m

theorem shipsFrom_of_load {t : Tree} (ht : t.PlainNames) {cwd : List String} {root : Path}
    {options : ProjectOptions} {model : ProjectModel} {m : Module} {c : ClassDescriptor}
    (hload : ProjectModel.load t cwd root options = .ok model) (hm : m ∈ model.modules)
    (hc : c ∈ m.testClasses) : ShipsFrom t cwd model m c ∧ '/' ∉ c.className.toList := by
  obtain ⟨ns, hat, hread⟩ := class_of_load hload hm hc
  obtain ⟨hpath, hname, bytes, hbytes⟩ := readClass_eq_ok hread
  refine ⟨⟨ns, hat, hpath, fun d hd hhead => ?_⟩, hname⟩
  obtain ⟨rest, rfl⟩ : ∃ rest, ns = d :: rest := by
    cases ns with
    | nil => cases hhead
    | cons n rest =>
      cases hhead
      exact ⟨rest, rfl⟩
  exact relativeDir_mem_moduleFiles hd (isDir_compiledDir ht hd hat hbytes)

/-- The work directory resolves to the directory at `pw`, which holds regular files only. -/
structure WorkDir (u : Tree) (cwd pw : List String) (workDir : Path) : Prop where
  resolve : u.resolve cwd workDir.text true = .ok (.found pw .dir)
  files : ∀ s e, u.get? (pw ++ [s]) = some e → e.kind = .file

theorem WorkDir.of_readDir {t : Tree} {cwd pw : List String} {workDir : Path}
    (h : t.readDir cwd workDir.text = .ok (pw, [])) : WorkDir t cwd pw workDir := by
  unfold Tree.readDir at h
  split at h
  · rename_i p hstat
    simp only [Except.ok.injEq, Prod.mk.injEq] at h
    obtain ⟨rfl, hnames⟩ := h
    refine ⟨Tree.resolve_of_stat hstat, fun s e hget => ?_⟩
    have hmem : s ∈ t.names p := Tree.mem_names.mpr ⟨e, hget⟩
    have : (s, e) ∈ (t.names p).filterMap fun n => (t.get? (p ++ [n])).map (n, ·) :=
      List.mem_filterMap.mpr ⟨s, hmem, by simp [hget]⟩
    rw [hnames] at this
    cases this
  all_goals cases h

theorem WorkDir.writeFile {u u' : Tree} {cwd pw : List String} {workDir : Path} {s : String}
    {bytes : List UInt8} (hw : WorkDir u cwd pw workDir) (hs : '/' ∉ s.toList) (hne : s ≠ "")
    (h : u.writeFile cwd (workDir.join s).text bytes = .ok u') :
    ∃ mode, u' = u.set (pw ++ [s]) (.file bytes mode) ∧
      u'.resolve cwd (workDir.join s).text true = .ok (.found (pw ++ [s]) (.file bytes mode)) ∧
      WorkDir u' cwd pw workDir := by
  obtain ⟨mode, rfl, hres⟩ := Tree.writeFile_join hw.resolve hs hne (hw.files s) h
  refine ⟨mode, rfl, hres, Tree.resolve_set_of_found (hw.files s) hw.resolve (.inr (by simp [Entry.kind])),
    fun s' e hget => ?_⟩
  rw [Tree.get?_set] at hget
  split at hget
  · cases hget
    rfl
  · exact hw.files s' e hget

/-- The task `task` packages the class `c` of module `m`: its name is plain, and its `.isolate`
file resolves to the file of that name in the work directory at `pw`, holding the description
of `c` with the files of `m` as the tree `t` lists them. -/
def Shipped (p : TaskPackager) (t u : Tree) (cwd pw : List String) (model : ProjectModel)
    (m : Module) (c : ClassDescriptor) (task : PackagedTest) : Prop :=
  '/' ∉ task.name.toList ∧ ∃ mode,
    u.resolve cwd task.isolateFile.text true = .ok (.found (pw ++ [task.name ++ ".isolate"])
      (.file (Text.Utf8.bytes ((p.isolateDoc (moduleFiles t cwd model m) c.className).pretty 0))
        mode))

theorem Shipped.set {p : TaskPackager} {t u : Tree} {cwd pw : List String} {model : ProjectModel}
    {m : Module} {c : ClassDescriptor} {task : PackagedTest} {q : List String}
    {bytes : List UInt8} {mode : Nat} (h : Shipped p t u cwd pw model m c task)
    (hq : ∀ e, u.get? q = some e → e.kind = .file) (hne : pw ++ [task.name ++ ".isolate"] ≠ q) :
    Shipped p t (u.set q (.file bytes mode)) cwd pw model m c task := by
  obtain ⟨hname, mode', hres⟩ := h
  exact ⟨hname, mode', Tree.resolve_set_of_found hq hres (.inl hne)⟩

/-- What packaging keeps from class to class, for the classes `pairs` packaged so far as the
tasks `done`: the work directory holds files only, the tree has the directories of `t`, the
task names are distinct, and each task ships its class. -/
structure Packing (p : TaskPackager) (t u : Tree) (cwd pw : List String) (model : ProjectModel)
    (workDir : Path) (pairs : List (Module × ClassDescriptor)) (done : List PackagedTest) :
    Prop where
  work : WorkDir u cwd pw workDir
  dirs : ∀ path, u.isDir cwd path = t.isDir cwd path
  nodup : (done.map (·.name)).Nodup
  shipped : List.Forall₂ (fun mc task => Shipped p t u cwd pw model mc.1 mc.2 task) pairs done

theorem forall₂_imp_of_mem {α β : Type} {R S : α → β → Prop} {P : β → Prop} :
    ∀ {l₁ : List α} {l₂ : List β}, List.Forall₂ R l₁ l₂ → (∀ b ∈ l₂, P b) →
      (∀ a b, P b → R a b → S a b) → List.Forall₂ S l₁ l₂
  | _, _, .nil, _, _ => .nil
  | _, _, .cons hr hrs, hp, hs =>
    .cons (hs _ _ (hp _ List.mem_cons_self) hr)
      (forall₂_imp_of_mem hrs (fun b hb => hp b (List.mem_cons_of_mem _ hb)) hs)

/-- One class packaged: its task gets a fresh plain name, its two files land in the work
directory under that name, and the tasks before it keep their `.isolate` files. -/
theorem Packing.packageClass {p : TaskPackager} {t u : Tree} {cwd pw : List String}
    {model : ProjectModel} {workDir : Path} {pairs : List (Module × ClassDescriptor)}
    {done : List PackagedTest} {m : Module} {c : ClassDescriptor}
    {acc : Tree × List String × List PackagedTest}
    (hinv : Packing p t u cwd pw model workDir pairs done) (hm : '/' ∉ m.name.toList)
    (hc : '/' ∉ c.className.toList)
    (h : p.packageClass cwd model.root workDir m.name (moduleFiles t cwd model m)
      (u, done.map (·.name), done) c = .ok acc) :
    acc.2.1 = acc.2.2.map (·.name) ∧
      Packing p t acc.1 cwd pw model workDir (pairs ++ [(m, c)]) acc.2.2 := by
  obtain ⟨u₂, hwrite, rfl⟩ := packageClass_writes h
  generalize hname : uniqueName (done.map (·.name)) c.className m.name = name at hwrite ⊢
  have hfree : name ∉ done.map (·.name) := hname ▸ uniqueName_not_mem _ _ _
  have hplain : '/' ∉ name.toList := hname ▸ slash_not_mem_uniqueName hc hm
  have hs : ∀ suffix : String, '/' ∉ suffix.toList → '/' ∉ (name ++ suffix).toList := by
    intro suffix hsuffix
    simp [hplain, hsuffix]
  obtain ⟨u₁, hwf₁, hwf₂, -⟩ := writeTask_writes hwrite
  obtain ⟨mode, rfl, hres, hw₁⟩ := hinv.work.writeFile (hs ".isolate" (by decide)) (by simp) hwf₁
  obtain ⟨mode₂, rfl, -, hw₂⟩ :=
    hw₁.writeFile (hs ".isolated.gen.json" (by decide)) (by simp) hwf₂
  have hgen : ∀ x, pw ++ [x ++ ".isolate"] ≠ pw ++ [name ++ ".isolated.gen.json"] := by
    intro x hx
    exact isolate_ne_gen x name (List.singleton_inj.mp (List.append_cancel_left hx))
  have hold : ∀ x, x ≠ name → pw ++ [x ++ ".isolate"] ≠ pw ++ [name ++ ".isolate"] := by
    intro x hne hx
    exact hne (String.append_left_inj _ |>.mp (List.singleton_inj.mp (List.append_cancel_left hx)))
  refine ⟨by simp [taskAt], hw₂, fun path => ?_, ?_, ?_⟩
  · rw [Tree.isDir_writeFile hwf₂, Tree.isDir_writeFile hwf₁, hinv.dirs]
  · rw [List.map_append, List.nodup_append]
    refine ⟨hinv.nodup, List.nodup_singleton _, ?_⟩
    simp only [List.map_cons, List.map_nil, List.mem_singleton, taskAt]
    rintro x hx y rfl rfl
    exact hfree hx
  · -- the earlier tasks have other names, so neither write touches their `.isolate` files
    have hnames : ∀ task ∈ done, task.name ≠ name :=
      fun task htask hname => hfree (hname ▸ List.mem_map_of_mem htask)
    refine List.rel_append (forall₂_imp_of_mem hinv.shipped hnames fun _ task hne hship =>
        (hship.set (hinv.work.files _) (hold _ hne)).set (hw₁.files _) (hgen _))
      (.cons ⟨hplain, mode, Tree.resolve_set_of_found (hw₁.files _) hres (.inl (hgen name))⟩ .nil)

theorem Packing.foldlM_packageClass {p : TaskPackager} {t : Tree} {cwd pw : List String}
    {model : ProjectModel} {workDir : Path} {m : Module} (hm : '/' ∉ m.name.toList)
    (cs : List ClassDescriptor) (hcs : ∀ c ∈ cs, '/' ∉ c.className.toList) :
    ∀ {pairs : List (Module × ClassDescriptor)} {u : Tree} {done : List PackagedTest}
      {acc : Tree × List String × List PackagedTest},
      Packing p t u cwd pw model workDir pairs done →
      cs.foldlM (p.packageClass cwd model.root workDir m.name (moduleFiles t cwd model m))
        (u, done.map (·.name), done) = .ok acc →
      acc.2.1 = acc.2.2.map (·.name) ∧
        Packing p t acc.1 cwd pw model workDir (pairs ++ cs.map (m, ·)) acc.2.2 := by
  intro pairs u done acc hinv h
  let I (pre : List ClassDescriptor) (acc : Tree × List String × List PackagedTest) : Prop :=
    acc.2.1 = acc.2.2.map (·.name) ∧
      Packing p t acc.1 cwd pw model workDir (pairs ++ pre.map (m, ·)) acc.2.2
  have hstep : ∀ pre, ∀ c ∈ cs, ∀ a a', I pre a →
      p.packageClass cwd model.root workDir m.name (moduleFiles t cwd model m) a c = .ok a' →
        I (pre ++ [c]) a' := by
    rintro pre c hc ⟨u', used, done'⟩ acc' ⟨hused, hpack⟩ hrun
    simp only at hused
    subst hused
    simpa [I] using hpack.packageClass hm (hcs c hc) hrun
  exact Except.foldlM_invariant I hstep ⟨rfl, by simpa using hinv⟩ h

theorem Packing.packageModule {p : TaskPackager} {t u : Tree} {cwd pw : List String}
    {model : ProjectModel} {workDir : Path} {pairs : List (Module × ClassDescriptor)}
    {done : List PackagedTest} {m : Module} {acc : Tree × List String × List PackagedTest}
    (hnames : ∀ c ∈ m.testClasses, '/' ∉ m.name.toList ∧ '/' ∉ c.className.toList)
    (hinv : Packing p t u cwd pw model workDir pairs done)
    (h : p.packageModule cwd model workDir (u, done.map (·.name), done) m = .ok acc) :
    acc.2.1 = acc.2.2.map (·.name) ∧
      Packing p t acc.1 cwd pw model workDir (pairs ++ m.testClasses.map (m, ·)) acc.2.2 := by
  unfold TaskPackager.packageModule at h
  split at h
  · rename_i hempty
    simp only [Except.ok.injEq] at h
    subst h
    simpa [List.isEmpty_iff.mp hempty] using hinv
  · rename_i hne
    obtain ⟨c, hc⟩ := List.exists_mem_of_ne_nil _ fun hnil => hne (List.isEmpty_iff.mpr hnil)
    rw [moduleFiles_congr hinv.dirs] at h
    exact Packing.foldlM_packageClass (hnames c hc).1 m.testClasses
      (fun c hc => (hnames c hc).2) hinv h

theorem Packing.foldlM_packageModule {p : TaskPackager} {t : Tree} {cwd pw : List String}
    {model : ProjectModel} {workDir : Path} (mods : List Module)
    (hmods : ∀ m ∈ mods, ∀ c ∈ m.testClasses, '/' ∉ m.name.toList ∧ '/' ∉ c.className.toList) :
    ∀ {pairs : List (Module × ClassDescriptor)} {u : Tree} {done : List PackagedTest}
      {acc : Tree × List String × List PackagedTest},
      Packing p t u cwd pw model workDir pairs done →
      mods.foldlM (p.packageModule cwd model workDir) (u, done.map (·.name), done) = .ok acc →
      Packing p t acc.1 cwd pw model workDir
        (pairs ++ mods.flatMap fun m => m.testClasses.map (m, ·)) acc.2.2 := by
  intro pairs u done acc hinv h
  let I (pre : List Module) (acc : Tree × List String × List PackagedTest) : Prop :=
    acc.2.1 = acc.2.2.map (·.name) ∧ Packing p t acc.1 cwd pw model workDir
      (pairs ++ pre.flatMap fun m => m.testClasses.map (m, ·)) acc.2.2
  have hstep : ∀ pre, ∀ m ∈ mods, ∀ a a', I pre a →
      p.packageModule cwd model workDir a m = .ok a' → I (pre ++ [m]) a' := by
    rintro pre m hm ⟨u', used, done'⟩ acc' ⟨hused, hpack⟩ hrun
    simp only at hused
    subst hused
    simpa [I] using Packing.packageModule (hmods m hm) hpack hrun
  exact (Except.foldlM_invariant I hstep ⟨rfl, by simpa using hinv⟩ h).2

/-- Packaging into an empty work directory gives each packaged class, in order, a task whose
`.isolate` file, read back, describes the class with the files its module lists in the tree
packaging started from. -/
theorem package_isolates {p : TaskPackager} {t t' : Tree} {cwd pw : List String}
    {model : ProjectModel} {workDir : Path} {tasks : List PackagedTest}
    (hnames : ∀ mc ∈ packagedClasses model, '/' ∉ mc.1.name.toList ∧ '/' ∉ mc.2.className.toList)
    (hwork : t.readDir cwd workDir.text = .ok (pw, []))
    (hpkg : p.package t cwd model workDir = .ok (t', tasks)) :
    List.Forall₂ (fun (mc : Module × ClassDescriptor) task =>
      t'.readBytes cwd task.isolateFile.text = .ok (Text.Utf8.bytes
        ((p.isolateDoc (moduleFiles t cwd model mc.1) mc.2.className).pretty 0)))
      (packagedClasses model) tasks := by
  unfold TaskPackager.package at hpkg
  obtain ⟨⟨u, used, done⟩, hfold, hout⟩ := Except.fmap_eq_ok.mp hpkg
  simp only [Prod.mk.injEq] at hout
  obtain ⟨rfl, rfl⟩ := hout
  have hinit : Packing p t t cwd pw model workDir [] [] :=
    ⟨WorkDir.of_readDir hwork, fun _ => rfl, List.nodup_nil, .nil⟩
  have hinv := Packing.foldlM_packageModule model.includedModules
    (fun m hm c hc => hnames (m, c) (mem_packagedClasses.mpr ⟨hm, hc⟩)) hinit hfold
  rw [List.nil_append] at hinv
  refine hinv.shipped.imp fun mc task hship => ?_
  obtain ⟨-, mode, hres⟩ := hship
  exact Tree.readBytes_of_resolve hres

theorem mem_modules_of_included {model : ProjectModel} {m : Module}
    (hm : m ∈ model.includedModules) : m ∈ model.modules := by
  obtain ⟨i, -, hi⟩ := List.mem_filterMap.mp hm
  exact List.mem_of_getElem? hi

/-- Packaging a loaded project into an empty work directory gives each packaged class, in
order, a task whose `.isolate` file describes the class with the files of its module; those
files hold the compiled directory the class file was read from, when it was read from one. A
class file anywhere else below the output directory is in no such directory, and nothing here
says the files reach it. -/
theorem package_ships_compiled_classes {p : TaskPackager} {t t' : Tree} {cwd pw : List String}
    {root workDir : Path} {options : ProjectOptions} {model : ProjectModel}
    {tasks : List PackagedTest} (ht : t.PlainNames)
    (hload : ProjectModel.load t cwd root options = .ok model)
    (hwork : t.readDir cwd workDir.text = .ok (pw, []))
    (hpkg : p.package t cwd model workDir = .ok (t', tasks)) :
    List.Forall₂ (fun (mc : Module × ClassDescriptor) task =>
      ShipsFrom t cwd model mc.1 mc.2 ∧
      t'.readBytes cwd task.isolateFile.text = .ok (Text.Utf8.bytes
        ((p.isolateDoc (moduleFiles t cwd model mc.1) mc.2.className).pretty 0)))
      (packagedClasses model) tasks := by
  have hloaded : ∀ mc ∈ packagedClasses model,
      ShipsFrom t cwd model mc.1 mc.2 ∧ '/' ∉ mc.2.className.toList := by
    intro mc hmc
    obtain ⟨hm, hc⟩ := mem_packagedClasses.mp hmc
    exact shipsFrom_of_load ht hload (mem_modules_of_included hm) hc
  have hnames : ∀ mc ∈ packagedClasses model,
      '/' ∉ mc.1.name.toList ∧ '/' ∉ mc.2.className.toList := by
    intro mc hmc
    have hm := mem_modules_of_included (mem_packagedClasses.mp hmc).1
    exact ⟨slash_not_mem_name_of_load hload hm, (hloaded mc hmc).2⟩
  exact (List.forall₂_and_left _ _).mpr
    ⟨fun mc hmc => (hloaded mc hmc).1, package_isolates hnames hwork hpkg⟩

def compiledSample : Tree :=
  ⟨[(["p"], .dir), (["w"], .dir), (["p", "pom.xml"], .file [] 420), (["p", "m"], .dir),
    (["p", "m", "pom.xml"], .file [] 420), (["p", "m", "target"], .dir),
    (["p", "m", "target", "test-classes"], .dir),
    (["p", "m", "target", "test-classes", "ATest.class"],
      .file (classBytes "ATest" defaultFlags) 420)]⟩

theorem package_ships_compiled_sample :
    ∃ model t' tasks, ProjectModel.load compiledSample [] ⟨"/p"⟩ {} = .ok model ∧
      TaskPackager.package ⟨"java", "R"⟩ compiledSample [] model ⟨"/w"⟩ = .ok (t', tasks) ∧
      List.Forall₂ (fun (mc : Module × ClassDescriptor) task =>
        ShipsFrom compiledSample [] model mc.1 mc.2 ∧
        t'.readBytes [] task.isolateFile.text = .ok (Text.Utf8.bytes
          ((TaskPackager.isolateDoc ⟨"java", "R"⟩ (moduleFiles compiledSample [] model mc.1)
            mc.2.className).pretty 0)))
        (packagedClasses model) tasks := by
  have hplain : compiledSample.PlainNames := by
    unfold Tree.PlainNames
    decide +kernel
  have hwork : compiledSample.readDir [] "/w" = .ok (["w"], []) :=
    Except.eq_ok_of_toOption (by decide +kernel)
  have hrun : (ProjectModel.load compiledSample [] ⟨"/p"⟩ {}).toOption.any (fun model =>
      (TaskPackager.package ⟨"java", "R"⟩ compiledSample [] model ⟨"/w"⟩).toOption.any
        fun _ => true) = true := by
    decide +kernel
  obtain ⟨model, hload, hpkg⟩ := Except.exists_ok_of_any hrun
  obtain ⟨⟨t', tasks⟩, hpkg, -⟩ := Except.exists_ok_of_any hpkg
  exact ⟨model, t', tasks, hload, hpkg, package_ships_compiled_classes hplain hload hwork hpkg⟩

/-- The project of the counterexample: module `m` has its two compiled directories, and its
test class compiled straight into its output directory. -/
def scatteredSample : Tree :=
  ⟨[(["p"], .dir), (["w"], .dir), (["p", "pom.xml"], .file [] 420), (["p", "m"], .dir),
    (["p", "m", "pom.xml"], .file [] 420), (["p", "m", "target"], .dir),
    (["p", "m", "target", "test-classes"], .dir), (["p", "m", "target", "classes"], .dir),
    (["p", "m", "target", "ScatteredTest.class"],
      .file (classBytes "ScatteredTest" defaultFlags) 420)]⟩

def scatteredModule : Module :=
  ⟨⟨"/p/m"⟩, "m", [⟨⟨"/p/m/target/ScatteredTest.class"⟩, "ScatteredTest", false, false⟩], [], []⟩

def scatteredModel : ProjectModel := ⟨⟨"/p/"⟩, [scatteredModule], [0]⟩

/-- A test class read from the output directory but from neither compiled directory is
packaged, and its task ships the two compiled directories only: no file of the task holds the
class file. -/
theorem scattered_class_unshipped :
    ProjectModel.load scatteredSample [] ⟨"/p"⟩ {} = .ok scatteredModel ∧ ∃ t',
      TaskPackager.package ⟨"java", "R"⟩ scatteredSample [] scatteredModel ⟨"/w"⟩ =
        .ok (t', [taskAt ⟨"/w"⟩ "ScatteredTest"]) ∧
      t'.readBytes [] "/w/ScatteredTest.isolate" = .ok (Text.Utf8.bytes
        ((TaskPackager.isolateDoc ⟨"java", "R"⟩ ["m/target/test-classes/", "m/target/classes/"]
          "ScatteredTest").pretty 0)) ∧
      ∀ f ∈ ["m/target/test-classes/", "m/target/classes/"],
        "/p/m/target/ScatteredTest.class".startsWith (scatteredModel.root.text ++ f) = false := by
  have hload : ProjectModel.load scatteredSample [] ⟨"/p"⟩ {} = .ok scatteredModel :=
    Except.eq_ok_of_toOption (by decide +kernel)
  have hwork : scatteredSample.readDir [] "/w" = .ok (["w"], []) :=
    Except.eq_ok_of_toOption (by decide +kernel)
  have hrun : (TaskPackager.package ⟨"java", "R"⟩ scatteredSample [] scatteredModel ⟨"/w"⟩).toOption.any
      (fun r => decide (r.2 = [taskAt ⟨"/w"⟩ "ScatteredTest"])) = true := by
    decide +kernel
  obtain ⟨⟨t', tasks⟩, hpkg, htasks⟩ := Except.exists_ok_of_any hrun
  obtain rfl : tasks = [taskAt ⟨"/w"⟩ "ScatteredTest"] := of_decide_eq_true htasks
  -- the isolate file holds the module's files, read off the tree before packaging
  have hiso := package_isolates (by decide +kernel) hwork hpkg
  have hclasses : packagedClasses scatteredModel =
      [(scatteredModule, ⟨⟨"/p/m/target/ScatteredTest.class"⟩, "ScatteredTest", false, false⟩)] :=
    rfl
  have hfiles : moduleFiles scatteredSample [] scatteredModel scatteredModule =
      ["m/target/test-classes/", "m/target/classes/"] := by decide +kernel
  rw [hclasses] at hiso
  obtain ⟨hbytes, -⟩ := List.forall₂_cons.mp hiso
  have hpath : (taskAt ⟨"/w"⟩ "ScatteredTest").isolateFile.text = "/w/ScatteredTest.isolate" := by
    decide +kernel
  rw [hfiles, hpath] at hbytes
  exact ⟨hload, t', hpkg, hbytes, by decide +kernel⟩

end Task

end TestDispatch
