import TestDispatch.Proofs.Task.Shipping
/-! The files a task ships: packaging a loaded project writes, into the `.isolate` file of every
test, the needed files of its module in a fixed order, without repeats. -/
namespace TestDispatch.Task

open TestDispatch.Fs TestDispatch.Project TestDispatch.Classfile TestDispatch.Json

theorem appendNew_eq (acc xs : List String) :
    appendNew acc xs = acc ++ (xs.removeAll acc).eraseDups := by
  induction xs generalizing acc with
  | nil => simp [appendNew, List.removeAll]
  | cons x xs ih =>
    have hstep : appendNew acc (x :: xs) =
        appendNew (if acc.contains x then acc else acc ++ [x]) xs := rfl
    rw [hstep]
    by_cases hx : x ∈ acc
    · rw [if_pos (List.contains_iff_mem.mpr hx), ih]
      simp [List.removeAll, hx]
    · rw [if_neg (by simpa using hx), ih, List.append_assoc]
      simp only [List.removeAll, List.eraseDups_cons, List.filter_cons, List.elem_eq_mem, hx,
        decide_false, Bool.not_false, if_true, List.filter_filter, List.cons_append,
        List.nil_append, List.mem_append, List.mem_singleton]
      congr 2
      refine congrArg List.eraseDups (List.filter_congr fun y _ => ?_)
      by_cases hy : y = x <;> simp [hy]

theorem appendNew_nil (xs : List String) : appendNew [] xs = xs.eraseDups := by
  simp [appendNew_eq, List.removeAll]

/-- The files a test of module `m` needs, before repeats are dropped: `m`'s compiled test and
main class directories that are directories, then `m`'s runtime jars, the runtime jars of each
module with another root in discovery order, and the test jars of each included module; all
relative to the root, directories with a final `/`. -/
def neededFiles (t : Tree) (cwd : List String) (model : ProjectModel) (m : Module) :
    List String :=
  (compiledDirs.filter fun d => t.isDir cwd (m.outputDir.join d).text).map
      (fun d => relativeDir model.root (m.outputDir.join d)) ++
    m.sourceArtifacts.map (relative model.root) ++
    ((model.modules.filter fun o => o.root.components ≠ m.root.components).flatMap
      (·.sourceArtifacts)).map (relative model.root) ++
    (model.includedModules.flatMap (·.testArtifacts)).map (relative model.root)

theorem moduleFiles_eq_eraseDups (t : Tree) (cwd : List String) (model : ProjectModel)
    (m : Module) : moduleFiles t cwd model m = (neededFiles t cwd model m).eraseDups := by
  have hdirs := filterMap_eq_map_filter (l := compiledDirs)
    (c := fun d => t.isDir cwd (m.outputDir.join d).text)
    (g := fun d => relativeDir model.root (m.outputDir.join d)) fun _ => rfl
  rw [moduleFiles, appendNew_nil, neededFiles, ← hdirs, List.map_flatMap, List.map_flatMap]

theorem plain_packagedClasses {t : Tree} {cwd : List String} {root : Path}
    {options : ProjectOptions} {model : ProjectModel}
    (hload : ProjectModel.load t cwd root options = .ok model) :
    ∀ mc ∈ packagedClasses model, '/' ∉ mc.1.name.toList ∧ '/' ∉ mc.2.className.toList := by
  intro mc hmc
  obtain ⟨hm, hc⟩ := mem_packagedClasses.mp hmc
  have hm' := mem_modules_of_included hm
  obtain ⟨ns, -, hread⟩ := class_of_load hload hm' hc
  exact ⟨slash_not_mem_name_of_load hload hm', (readClass_eq_ok hread).2.1⟩

theorem package_isolates_of_load {config : Config.Settings} {t t' : Tree} {cwd pw : List String}
    {root workDir : Path} {options : ProjectOptions} {model : ProjectModel}
    {tasks : List PackagedTest} (hload : ProjectModel.load t cwd root options = .ok model)
    (hwork : t.readDir cwd workDir.text = .ok (pw, []))
    (hpkg : (TaskPackager.ofConfig config).package t cwd model workDir = .ok (t', tasks)) :
    List.Forall₂ (fun (mc : Module × ClassDescriptor) task =>
      t'.readBytes cwd task.isolateFile.text = .ok (Text.Utf8.bytes
        (((TaskPackager.ofConfig config).isolateDoc (neededFiles t cwd model mc.1).eraseDups
          mc.2.className).pretty 0)))
      (packagedClasses model) tasks := by
  refine (package_isolates (plain_packagedClasses hload) hwork hpkg).imp fun mc task h => ?_
  rw [h, moduleFiles_eq_eraseDups]

/-- Packaging a loaded project into an empty work directory writes, into the `.isolate` file of
each test of an included module, the files that module needs with every repeat of an earlier
entry dropped, and the command that runs the configured test runner on the class path of those
files. -/
theorem package_writes_needed_files {config : Config.Settings} {t t' : Tree} {cwd pw : List String}
    {root workDir : Path} {options : ProjectOptions} {model : ProjectModel}
    {tasks : List PackagedTest} (hload : ProjectModel.load t cwd root options = .ok model)
    (hwork : t.readDir cwd workDir.text = .ok (pw, []))
    (hpkg : (TaskPackager.ofConfig config).package t cwd model workDir = .ok (t', tasks)) :
    List.Forall₂ (fun (mc : Module × ClassDescriptor) task =>
      t'.readBytes cwd task.isolateFile.text = .ok (Text.Utf8.bytes (Value.pretty 0
        (.obj [("variables", .obj [
          ("command", strings [config.java, "-cp",
            ":".intercalate (neededFiles t cwd model mc.1).eraseDups, config.junitRunner,
            mc.2.className]),
          ("files", strings (neededFiles t cwd model mc.1).eraseDups)])]))))
      (packagedClasses model) tasks :=
  package_isolates_of_load hload hwork hpkg

/-- A project of two modules as a build leaves it: the root module with a test class, and
`core` with its main classes, a runtime jar and a test jar; and an empty work directory. -/
def twoModuleSample : Tree :=
  ⟨[(["p"], .dir), (["w"], .dir), (["p", "pom.xml"], .file [] 420), (["p", "target"], .dir),
    (["p", "target", "test-classes"], .dir),
    (["p", "target", "test-classes", "ATest.class"],
      .file (classBytes "ATest" defaultFlags) 420),
    (["p", "core"], .dir), (["p", "core", "pom.xml"], .file [] 420),
    (["p", "core", "target"], .dir), (["p", "core", "target", "classes"], .dir),
    (["p", "core", "target", "core-1.0.jar"], .file [] 420),
    (["p", "core", "target", "core-1.0-tests.jar"], .file [] 420)]⟩

theorem twoModuleSample_packages :
    ∃ model t' tasks, ProjectModel.load twoModuleSample [] ⟨"/p"⟩ {} = .ok model ∧
      twoModuleSample.readDir [] "/w" = .ok (["w"], []) ∧
      (TaskPackager.ofConfig {}).package twoModuleSample [] model ⟨"/w"⟩ = .ok (t', tasks) := by
  have hwork : twoModuleSample.readDir [] "/w" = .ok (["w"], []) :=
    Except.eq_ok_of_toOption (by decide +kernel)
  have hrun : (ProjectModel.load twoModuleSample [] ⟨"/p"⟩ {}).toOption.any (fun model =>
      ((TaskPackager.ofConfig {}).package twoModuleSample [] model ⟨"/w"⟩).toOption.any
        fun _ => true) = true := by
    decide +kernel
  obtain ⟨model, hload, hpkg⟩ := Except.exists_ok_of_any hrun
  obtain ⟨⟨t', tasks⟩, hpkg, -⟩ := Except.exists_ok_of_any hpkg
  exact ⟨model, t', tasks, hload, hwork, hpkg⟩

theorem package_writes_needed_files_sample :
    ∃ model t' tasks, ProjectModel.load twoModuleSample [] ⟨"/p"⟩ {} = .ok model ∧
      twoModuleSample.readDir [] "/w" = .ok (["w"], []) ∧
      (TaskPackager.ofConfig {}).package twoModuleSample [] model ⟨"/w"⟩ = .ok (t', tasks) ∧
      List.Forall₂ (fun (mc : Module × ClassDescriptor) task =>
        t'.readBytes [] task.isolateFile.text = .ok (Text.Utf8.bytes (Value.pretty 0
          (.obj [("variables", .obj [
            ("command", strings [(({} : Config.Settings)).java, "-cp",
              ":".intercalate (neededFiles twoModuleSample [] model mc.1).eraseDups,
              ({} : Config.Settings).junitRunner, mc.2.className]),
            ("files", strings (neededFiles twoModuleSample [] model mc.1).eraseDups)])]))))
        (packagedClasses model) tasks := by
  obtain ⟨model, t', tasks, hload, hwork, hpkg⟩ := twoModuleSample_packages
  exact ⟨model, t', tasks, hload, hwork, hpkg, package_writes_needed_files hload hwork hpkg⟩

end TestDispatch.Task
