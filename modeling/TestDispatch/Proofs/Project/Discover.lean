import TestDispatch.Proofs.Project.Fields
import TestDispatch.Proofs.Fs.Relative
/-! Which modules discovery finds: the root and the directories reached through directories only
that hold `pom.xml` and `target`, each once, in lexicographic order of their names. -/
namespace TestDispatch.Project

open TestDispatch.Fs

def dirsBelow (t : Tree) (p : List String) : List (List String) :=
  [] :: (t.walkFrom (t.entries.length + 1) p).filterMap fun (ns, e) =>
    if e = .dir then some ns else none

/-- `dirs` are the module roots below the directory at `p` that `root` names, each by the names
leading to it: the root itself and every directory reached through directories only, that holds
a build descriptor and an output directory (links followed for these two), each once, in
lexicographic order of the names. -/
def ModuleRoots (t : Tree) (cwd : List String) (root : Path) (p : List String)
    (dirs : List (List String)) : Prop :=
  dirs.Pairwise (· < ·) ∧
    ∀ ns, ns ∈ dirs ↔ (ns = [] ∨ t.Below p ns .dir) ∧
      t.isFile cwd ((root.joinAll ns).join buildDescriptor).text = true ∧
      t.isDir cwd ((root.joinAll ns).join outputDirName).text = true

section Discover

variable {t : Tree} {cwd : List String} {root : Path} {p : List String}

theorem mem_dirsBelow {ns : List String} : ns ∈ dirsBelow t p ↔ ns = [] ∨ t.Below p ns .dir := by
  simp only [dirsBelow, List.mem_cons, List.mem_filterMap, Prod.exists,
    Option.ite_none_right_eq_some, Option.some.injEq]
  constructor
  · rintro (rfl | ⟨ns', e, hmem, rfl, rfl⟩)
    · exact .inl rfl
    · exact .inr (Tree.mem_walkFrom_complete.mp hmem)
  · rintro (rfl | hbelow)
    · exact .inl rfl
    · exact .inr ⟨ns, .dir, Tree.mem_walkFrom_complete.mpr hbelow, rfl, rfl⟩

theorem pairwise_dirsBelow (ht : t.Wf) (p : List String) : (dirsBelow t p).Pairwise (· < ·) := by
  have hwalk : ((t.walkFrom (t.entries.length + 1) p).filterMap fun x : List String × Entry =>
      if x.2 = .dir then some x.1 else none).Pairwise (· < ·) := by
    refine (List.pairwise_map.mp (pairwise_walkFrom ht _ p)).filterMap _ ?_
    intro a b hab x hx y hy
    simp only [Option.ite_none_right_eq_some, Option.some.injEq] at hx hy
    rw [← hx.2, ← hy.2]
    exact hab
  refine List.pairwise_cons.mpr ⟨fun ns hns => ?_, hwalk⟩
  -- every directory below is reached by at least one name, and so comes after the root
  have hbelow : t.Below p ns .dir := by
    rcases mem_dirsBelow.mp (List.mem_cons_of_mem _ hns) with rfl | h
    · obtain ⟨⟨ns', e⟩, hmem, hsome⟩ := List.mem_filterMap.mp hns
      simp only [Option.ite_none_right_eq_some, Option.some.injEq] at hsome
      exact absurd hsome.2 (Tree.mem_walkFrom_complete.mp hmem).ne_nil
    · exact h
  obtain ⟨n, ns', rfl⟩ := List.exists_cons_of_ne_nil hbelow.ne_nil
  exact List.nil_lt_cons n ns'

theorem exists_stat_of_isDir (h : t.isDir cwd root.text = true) :
    ∃ p, t.stat cwd root.text = .ok (p, .dir) := by
  unfold Tree.isDir at h
  split at h
  · rename_i p hstat
    exact ⟨p, hstat⟩
  · cases h

theorem walkBelow_eq (hstat : t.stat cwd root.text = .ok (p, .dir)) :
    walkBelow t cwd root =
      (t.walkFrom (t.entries.length + 1) p).map fun (ns, e) => (root.joinAll ns, e) := by
  unfold walkBelow
  rw [hstat]
  exact walkEntries_eq_map t _ root p

/-- Below a project root, discovery keeps the directories of the walk that are module roots. -/
theorem discoverModules_eq_ok (hf : t.isFile cwd (root.join buildDescriptor).text = true)
    (hstat : t.stat cwd root.text = .ok (p, .dir)) :
    discoverModules t cwd root = .ok (((dirsBelow t p).filter fun ns =>
      isModuleRoot t cwd (root.joinAll ns)).map fun ns => Module.new (root.joinAll ns)) := by
  have hd : t.isDir cwd root.text = true := by simp [Tree.isDir, hstat]
  have hdirs : root :: (walkBelow t cwd root).filterMap (fun x =>
      if x.2 = .dir then some x.1 else none) = (dirsBelow t p).map root.joinAll := by
    rw [walkBelow_eq hstat, List.filterMap_map, dirsBelow, List.map_cons, List.map_filterMap]
    congr 2
    funext x
    rcases x with ⟨ns, e⟩
    by_cases he : e = .dir <;> simp [he]
  simp only [discoverModules, validateRoot, hd, hf, Bool.not_true, Bool.false_eq_true, if_false,
    Except.ok_bind, hdirs, List.filter_map, List.map_map]
  rfl

/-- Discovery refuses a root that is not a directory, then one without a build descriptor; below
a project root it finds the module roots, each once and in depth-first order, as modules named
after their directories. -/
theorem discoverModules_finds_module_roots (ht : t.Wf) (cwd : List String) (root : Path) :
    (t.isDir cwd root.text = false →
      discoverModules t cwd root = .error (.notAProject root "path is not a directory")) ∧
    (t.isDir cwd root.text = true → t.isFile cwd (root.join buildDescriptor).text = false →
      discoverModules t cwd root = .error (.notAProject root "no pom.xml file found")) ∧
    (t.isDir cwd root.text = true → t.isFile cwd (root.join buildDescriptor).text = true →
      ∃ p dirs, t.stat cwd root.text = .ok (p, .dir) ∧ ModuleRoots t cwd root p dirs ∧
        discoverModules t cwd root = .ok (dirs.map fun ns => Module.new (root.joinAll ns))) := by
  refine ⟨fun hd => ?_, fun hd hf => ?_, fun hd hf => ?_⟩
  · rw [discoverModules_eq_error (by simp [hd])]
    simp [hd]
  · rw [discoverModules_eq_error (by simp [hf])]
    simp [hd]
  · obtain ⟨p, hstat⟩ := exists_stat_of_isDir hd
    refine ⟨p, _, hstat, ⟨(pairwise_dirsBelow ht p).filter _, fun ns => ?_⟩,
      discoverModules_eq_ok hf hstat⟩
    simp only [List.mem_filter, mem_dirsBelow, isModuleRoot, Bool.and_eq_true]

end Discover

/-- A project with a nested module, a directory with a descriptor but no output directory, and a
link to a module. -/
def nestedSample : Tree :=
  ⟨[(["p"], .dir), (["p", "pom.xml"], .file [] 420), (["p", "target"], .dir),
    (["p", "core"], .dir), (["p", "core", "pom.xml"], .file [] 420),
    (["p", "core", "target"], .dir), (["p", "docs"], .dir), (["p", "docs", "pom.xml"], .file [] 420),
    (["p", "link"], .symlink "core")]⟩

theorem discoverModules_nested_sample :
    nestedSample.Wf ∧
      (nestedSample.isDir [] "/p" = false →
        discoverModules nestedSample [] ⟨"/p"⟩ = .error (.notAProject ⟨"/p"⟩ "path is not a directory")) ∧
      (nestedSample.isDir [] "/p" = true →
        nestedSample.isFile [] (Path.join ⟨"/p"⟩ buildDescriptor).text = false →
        discoverModules nestedSample [] ⟨"/p"⟩ = .error (.notAProject ⟨"/p"⟩ "no pom.xml file found")) ∧
      (nestedSample.isDir [] "/p" = true →
        nestedSample.isFile [] (Path.join ⟨"/p"⟩ buildDescriptor).text = true →
        ∃ p dirs, nestedSample.stat [] "/p" = .ok (p, .dir) ∧
          ModuleRoots nestedSample [] ⟨"/p"⟩ p dirs ∧
          discoverModules nestedSample [] ⟨"/p"⟩ =
            .ok (dirs.map fun ns => Module.new (Path.joinAll ⟨"/p"⟩ ns))) :=
  have ht : nestedSample.Wf := by decide
  ⟨ht, discoverModules_finds_module_roots ht [] ⟨"/p"⟩⟩

example : (discoverModules nestedSample [] ⟨"/p"⟩).toOption.map (·.map (·.name)) =
    some ["p", "core"] := by
  decide +kernel

theorem name_new_joinAll {root : Path} (hroot : root.text ≠ "") {ns : List String} {n : String}
    (hns : ∀ m ∈ ns, Path.ProperName m) (hn : Path.ProperName n) :
    (Module.new (root.joinAll (ns ++ [n]))).name = n := by
  have hdir : (root.joinAll ns).text ≠ "" := by
    rcases List.eq_nil_or_concat ns with rfl | ⟨ms, m, rfl⟩
    · exact hroot
    · have hm := hns m (by simp)
      rw [List.concat_eq_append, Path.joinAll_append]
      exact Path.text_join_ne hm.2.1 hm.1
  obtain ⟨hne, hslash, hdot, hdotdot⟩ := hn
  simp only [Module.new, Path.joinAll_append, Path.joinAll_cons, Path.joinAll_nil,
    Path.fileName?_join hdir hslash hne ⟨hdot, hdotdot⟩, Option.getD_some]

end TestDispatch.Project
