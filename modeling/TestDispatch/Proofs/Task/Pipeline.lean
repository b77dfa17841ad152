import TestDispatch.Proofs.Task.Trace
import TestDispatch.Proofs.Fs.Remove
import TestDispatch.Proofs.Text.Utf8
/-! What a run promises, read off `RunEnd` (`RunContract`), and what it leaves of the host and
its work directory (`CleanupContract`). -/
namespace TestDispatch.Task

open TestDispatch.Fs TestDispatch.Tool TestDispatch.Project

theorem createWorkDir_error {t : Tree} {cwd : List String} {parent : Path} {e : PipelineError}
    (h : createWorkDir t cwd parent = .error e) : ∃ io path, e = .ioAt io path := by
  unfold createWorkDir at h
  generalize List.range (t.entries.length + 1) = ns at h
  induction ns with
  | nil => cases h; exact ⟨_, _, rfl⟩
  | cons n ns ih =>
    simp only [createWorkDir.attempt] at h
    split at h
    · cases h
    · exact ih h
    · cases h; exact ⟨_, _, rfl⟩

theorem createWorkDir_ok {t t' : Tree} {cwd : List String} {parent work : Path}
    (h : createWorkDir t cwd parent = .ok (t', work)) : ∃ n, work = parent.join (workDirName n) := by
  unfold createWorkDir at h
  generalize List.range (t.entries.length + 1) = ns at h
  induction ns with
  | nil => cases h
  | cons n ns ih =>
    simp only [createWorkDir.attempt] at h
    split at h
    · cases h
      exact ⟨n, rfl⟩
    · exact ih h
    · cases h

theorem slash_not_mem_workDirName (n : Nat) : '/' ∉ (workDirName n).toList := by
  simp only [workDirName, workDirPrefix, String.toList_append, String.toList_ofList,
    List.mem_append, List.mem_map, List.mem_range, not_or]
  refine ⟨by decide, ?_⟩
  rintro ⟨i, -, h⟩
  have h' := congrArg Char.toNat h
  rw [Text.Utf8.toNat_ofNat_of_valid (by omega)] at h'
  simp at h'
  omega

theorem workDirName_head (n : Nat) : (workDirName n).toList.head? = some 'g' := by
  simp [workDirName, workDirPrefix]

theorem endsInName_join_workDirName (parent : Path) (n : Nat) :
    Tree.EndsInName (parent.join (workDirName n)).text := by
  have hs := slash_not_mem_workDirName n
  have hne : workDirName n ≠ "" := fun h => by simpa [h] using workDirName_head n
  have hname : workDirName n ≠ "." ∧ workDirName n ≠ ".." := by
    constructor <;> intro h <;> simpa [h] using workDirName_head n
  refine ⟨⟨workDirName n, ?_, hname⟩, Path.endsWith_join hs hne⟩
  rw [Path.mk_text]
  by_cases hparent : parent.text = ""
  · have htext : (parent.join (workDirName n)).text = workDirName n := by
      rw [Path.join_text hs, if_pos (.inl hparent), hparent, String.empty_append]
    simp [Path.parts, htext, List.splitOn_eq_singleton hs, hne]
  · rw [Path.comps_join hparent hs hne, List.getLast?_concat]

theorem readHashes_error {path : Path} {contents : Except IoError (List UInt8)} {e : PipelineError}
    (h : readHashes path contents = .error e) : ∃ msg, e = .invalidHashes path msg := by
  unfold readHashes at h
  split at h
  · cases h; exact ⟨_, rfl⟩
  · split at h
    · cases h; exact ⟨_, rfl⟩
    · split at h
      · cases h
      · cases h; exact ⟨_, rfl⟩

section PackageError

variable {p : TaskPackager} {cwd : List String} {e : PipelineError}

theorem writeTask_error {t : Tree} {root workDir : Path} {name : String}
    {c : Classfile.ClassDescriptor} {files : List String}
    (h : p.writeTask t cwd root workDir name c files = .error e) : ∃ io, e = .io io := by
  have hwrite : ∀ (x : Except IoError Tree) e, x.mapError PipelineError.io = .error e →
      ∃ io, e = .io io := by
    intro x e hx
    obtain ⟨io, -, rfl⟩ := Except.mapError_eq_error.mp hx
    exact ⟨io, rfl⟩
  unfold TaskPackager.writeTask at h
  refine Except.bind_error (hwrite _) (fun _ => ?_) e h
  exact Except.bind_error (hwrite _) fun _ _ he => by cases he

theorem packageClass_error {root workDir : Path} {moduleName : String} {files : List String}
    {acc : Tree × List String × List PackagedTest} {c : Classfile.ClassDescriptor}
    (h : p.packageClass cwd root workDir moduleName files acc c = .error e) :
    ∃ io, e = .io io := by
  obtain ⟨t, used, done⟩ := acc
  unfold TaskPackager.packageClass at h
  refine Except.bind_error (fun _ => writeTask_error) (fun r _ he => ?_) e h
  obtain ⟨t', test⟩ := r
  cases he

theorem packageModule_error {model : ProjectModel} {workDir : Path}
    {acc : Tree × List String × List PackagedTest} {m : Module}
    (h : p.packageModule cwd model workDir acc m = .error e) : ∃ io, e = .io io := by
  unfold TaskPackager.packageModule at h
  split at h
  · cases h
  · exact Except.foldlM_error (fun _ _ _ => packageClass_error) _ _ _ h

theorem package_error {t : Tree} {model : ProjectModel} {workDir : Path}
    (h : p.package t cwd model workDir = .error e) : ∃ io, e = .io io := by
  unfold TaskPackager.package at h
  cases hfold : model.includedModules.foldlM (p.packageModule cwd model workDir) (t, [], []) with
  | error e' =>
    rw [hfold] at h
    cases h
    exact Except.foldlM_error (fun _ _ _ => packageModule_error) _ _ _ hfold
  | ok acc =>
    rw [hfold] at h
    cases h

end PackageError

section Promise

variable (archive : Host → List Path → Path → ToolRun) (config : Config.Settings) (host : Host)
  (root : Path) (options : RunOptions)

/-- What a run promises, read off its stage marks `marks`, its result and its tool calls. -/
structure RunContract (marks : List (Stage × Mark)) (result : Except PipelineError Outcome)
    (calls : List ToolCall) : Prop where
  /-- The stages start and complete in order; the last one reached may be left open, or, on a
  dry run, the submission skipped. -/
  ordered : ∃ k, marks = Stage.completedMarks k ∨
    (∃ s, Stage.all[k]? = some s ∧ marks = Stage.completedMarks k ++ [(s, .start)]) ∨
    (options.dryRun = true ∧ marks = Stage.completedMarks 4 ++ [(.submission, .skip)])
  /-- A stage left open failed, and the run ends with its failure. -/
  open_fails : ∀ k s, marks = Stage.completedMarks k ++ [(s, .start)] → ∃ e, result = .error e
  /-- A failure is that of the open stage, the lack of tests after packaging, or the work
  directory's, before any stage. -/
  fails_open : ∀ e, result = .error e →
    (∃ k s, marks = Stage.completedMarks k ++ [(s, .start)]) ∨
    (marks = Stage.completedMarks 2 ∧ ∃ r inc exc, e = .noTestsFound r inc exc) ∨
    (marks = [] ∧ calls = [])
  /-- A successful run completed every stage, the submission skipped when the run is dry. -/
  succeeds : ∀ o, result = .ok o → o.submitted = !options.dryRun ∧
    marks = Stage.completedMarks 4 ++ (if options.dryRun then [(.submission, .skip)]
      else [(.submission, .start), (.submission, .finish)])
  /-- A dry run never starts the submission, and skips it once the manifest is complete. -/
  dry_skips : options.dryRun = true → (.submission, .start) ∉ marks ∧
    ((.submission, .skip) ∈ marks ↔ (.manifest, .finish) ∈ marks)
  archive_once : (calls.filter ToolCall.isArchive).length ≤ 1
  /-- The archiver is called after packaging made tasks, with their description files in
  packaging order and the hash file of the work directory. -/
  archive_args : ∀ h ds hf, .archive h ds hf ∈ calls → (.packaging, .finish) ∈ marks ∧
    ∃ t0 work model t1 packaged, Packaged config host root options t0 work model t1 packaged ∧
      packaged ≠ [] ∧ h = { host with tree := t1 } ∧ ds = packaged.map (·.genFile) ∧
      hf = work.join hashesFileName
  /-- The run finds no tests exactly when packaging made no task, and says so with the
  project's root and the given patterns. -/
  no_tests : ∀ r inc exc, result = .error (.noTestsFound r inc exc) ↔
    ∃ t0 work model t1, Packaged config host root options t0 work model t1 [] ∧
      r = model.root ∧ inc = options.project.includePatterns ∧
      exc = options.project.excludePatterns
  submit_once : (calls.filter fun c => !c.isArchive).length ≤ 1
  /-- The submission client is called only on a run that is not dry, once the manifest is
  complete, with the manifest file of the work directory; that file then holds the manifest
  made from the archiver's hash mapping, which a successful run reports. -/
  submit_args : ∀ h mf, .submit h mf ∈ calls → options.dryRun = false ∧
    (.manifest, .finish) ∈ marks ∧
    ∃ (work : Path) (manifest : TaskManifest), mf = work.join manifestFileName ∧
      h.tree.readBytes h.cwd mf.text = .ok (Text.Utf8.bytes manifest.text) ∧
      (∃ ha ds hashes, .archive ha ds (work.join hashesFileName) ∈ calls ∧
        readHashes (work.join hashesFileName)
          ((archive ha ds (work.join hashesFileName)).tree.readBytes ha.cwd
            (work.join hashesFileName).text) = .ok hashes ∧
        manifest = TaskManifest.ofHashes hashes config.taskTimeoutSecs) ∧
      ∀ o, result = .ok o → o.manifest = manifest

/-- What a run leaves of the host and says of its work directory. A run that could not make one
changes nothing and reports nothing. Otherwise only the file system changes; the events start
with `WorkDirKept` exactly when the directory is kept, and report it nowhere else; and a work
directory not kept is gone once the run ends, whichever way: its path names no directory and
no link, only a file a tool may have put there. -/
structure CleanupContract (after : Host) (events : List Event) : Prop where
  unmade : ∀ e, createWorkDir host.tree host.cwd options.tempRoot = .error e →
    after = host ∧ events = []
  host_kept : after.cwd = host.cwd ∧ after.env = host.env ∧ after.userHome = host.userHome
  kept_first : ∀ t work, createWorkDir host.tree host.cwd options.tempRoot = .ok (t, work) →
    ∃ rest, events = (if options.leakTemp then [.workDirKept work] else []) ++ rest ∧
      ∀ w, .workDirKept w ∉ rest
  removed : ∀ t work, createWorkDir host.tree host.cwd options.tempRoot = .ok (t, work) →
    options.leakTemp = false →
      ∀ p e, after.tree.lstat after.cwd work.text = .ok (p, e) → e.kind = .file

end Promise

section Contract

variable {archive : Host → List Path → Path → ToolRun} {submit : Host → Path → ToolRun}
  {config : Config.Settings} {host : Host} {root : Path} {options : RunOptions}
  {marks : List (Stage × Mark)} {result : Except PipelineError Outcome} {calls : List ToolCall}

theorem Packaged.unique {t0 t0' : Tree} {work work' : Path} {model model' : ProjectModel}
    {t1 t1' : Tree} {packaged packaged' : List PackagedTest}
    (h : Packaged config host root options t0 work model t1 packaged)
    (h' : Packaged config host root options t0' work' model' t1' packaged') :
    t0' = t0 ∧ work' = work ∧ model' = model ∧ t1' = t1 ∧ packaged' = packaged := by
  obtain ⟨hw, hl, hp⟩ := h
  obtain ⟨hw', hl', hp'⟩ := h'
  rw [hw] at hw'
  cases hw'
  rw [hl] at hl'
  cases hl'
  rw [hp] at hp'
  cases hp'
  exact ⟨rfl, rfl, rfl, rfl, rfl⟩

/-- The run finds no tests exactly when packaging made none: every other way out fails with a
failure of another kind, and a run that packaged nothing cannot have ended elsewhere. -/
theorem RunEnd.noTests_iff (h : RunEnd archive submit config host root options marks result calls)
    (r : Path) (inc exc : List String) :
    result = .error (.noTestsFound r inc exc) ↔
      ∃ t0 work model t1, Packaged config host root options t0 work model t1 [] ∧
        r = model.root ∧ inc = options.project.includePatterns ∧
        exc = options.project.excludePatterns := by
  constructor
  · intro he
    cases h with
    | noTests hpk =>
      cases he
      exact ⟨_, _, _, _, hpk, rfl, rfl, rfl⟩
    | workDirFailed hw =>
      obtain ⟨io, path, rfl⟩ := createWorkDir_error hw
      cases he
    | packagingFailed _ _ hp =>
      obtain ⟨io, rfl⟩ := package_error hp
      cases he
    | archivingFailed _ _ hfail | submissionFailed _ _ _ _ _ hfail =>
      rcases hfail.eq with rfl | ⟨pe, rfl⟩ <;> cases he
    | hashesUnread _ _ _ hh =>
      obtain ⟨msg, rfl⟩ := readHashes_error hh
      cases he
    | discoveryFailed | manifestUnwritten | dryRun | submitted => cases he
  · rintro ⟨t0, work, model, t1, hpk, rfl, rfl, rfl⟩
    cases h with
    | noTests hpk' =>
      obtain ⟨-, -, rfl, -, -⟩ := hpk.unique hpk'
      rfl
    | workDirFailed hw =>
      rw [hpk.1] at hw
      cases hw
    | discoveryFailed hw hl =>
      rw [hpk.1] at hw
      cases hw
      rw [hpk.2.1] at hl
      cases hl
    | packagingFailed hw hl hp =>
      rw [hpk.1] at hw
      cases hw
      rw [hpk.2.1] at hl
      cases hl
      rw [hpk.2.2] at hp
      cases hp
    | archivingFailed hpk' hne _ | hashesUnread hpk' hne _ _ | manifestUnwritten hpk' hne _ _
    | dryRun hpk' hne _ _ _ | submissionFailed hpk' hne _ _ _ _ | submitted hpk' hne _ _ _ _ =>
      exact absurd (hpk.unique hpk').2.2.2.2 hne

theorem RunEnd.contract (h : RunEnd archive submit config host root options marks result calls) :
    RunContract archive config host root options marks result calls where
  ordered := by
    cases h with
    | workDirFailed => exact ⟨0, .inl rfl⟩
    | discoveryFailed => exact ⟨0, .inr (.inl ⟨.discovery, rfl, rfl⟩)⟩
    | packagingFailed => exact ⟨1, .inr (.inl ⟨.packaging, rfl, rfl⟩)⟩
    | noTests => exact ⟨2, .inl rfl⟩
    | archivingFailed => exact ⟨2, .inr (.inl ⟨.archiving, rfl, rfl⟩)⟩
    | hashesUnread | manifestUnwritten => exact ⟨3, .inr (.inl ⟨.manifest, rfl, rfl⟩)⟩
    | dryRun _ _ _ _ hdry => exact ⟨4, .inr (.inr ⟨hdry, rfl⟩)⟩
    | submissionFailed => exact ⟨4, .inr (.inl ⟨.submission, rfl, rfl⟩)⟩
    | submitted => exact ⟨5, .inl rfl⟩
  open_fails k s hm := by
    have hlast := congrArg List.getLast? hm
    cases h with
    | dryRun => simp [Stage.completedMarks, Stage.all] at hlast
    | submitted => simp [Stage.completedMarks, Stage.all] at hlast
    | _ => exact ⟨_, rfl⟩
  fails_open e he := by
    cases h with
    | workDirFailed => exact .inr (.inr ⟨rfl, rfl⟩)
    | discoveryFailed => exact .inl ⟨0, _, rfl⟩
    | packagingFailed => exact .inl ⟨1, _, rfl⟩
    | noTests =>
      cases he
      exact .inr (.inl ⟨rfl, _, _, _, rfl⟩)
    | archivingFailed => exact .inl ⟨2, _, rfl⟩
    | hashesUnread | manifestUnwritten => exact .inl ⟨3, _, rfl⟩
    | submissionFailed => exact .inl ⟨4, _, rfl⟩
    | dryRun | submitted => cases he
  succeeds o ho := by
    cases h with
    | dryRun _ _ _ _ hdry =>
      cases ho
      simp [hdry]
    | submitted _ _ _ _ hdry _ =>
      cases ho
      rw [hdry]
      exact ⟨rfl, rfl⟩
    | _ => cases ho
  dry_skips hdry := by
    cases h with
    | submissionFailed _ _ _ _ hdry' _ | submitted _ _ _ _ hdry' _ =>
      rw [hdry] at hdry'
      cases hdry'
    | _ => decide
  archive_once := by
    cases h <;> simp [archiveCall, submitCall, ToolCall.isArchive, List.filter]
  archive_args ha ds hf hmem := by
    cases h with
    | archivingFailed hpk hne _ | hashesUnread hpk hne _ _ | manifestUnwritten hpk hne _ _
    | dryRun hpk hne _ _ _ | submissionFailed hpk hne _ _ _ _ | submitted hpk hne _ _ _ _ =>
      simp only [archiveCall, submitCall, List.mem_cons, ToolCall.archive.injEq, reduceCtorEq,
        List.not_mem_nil, or_false] at hmem
      obtain ⟨rfl, rfl, rfl⟩ := hmem
      exact ⟨by decide, _, _, _, _, _, hpk, hne, rfl, rfl, rfl⟩
    | _ => cases hmem
  no_tests := h.noTests_iff
  submit_once := by
    cases h <;> simp [archiveCall, submitCall, ToolCall.isArchive, List.filter]
  submit_args hs mf hmem := by
    cases h with
    | submissionFailed _ _ harch hwr hdry _ | submitted _ _ harch hwr hdry _ =>
      simp only [archiveCall, submitCall, List.mem_cons, ToolCall.submit.injEq, reduceCtorEq,
        List.not_mem_nil, false_or, or_false] at hmem
      obtain ⟨rfl, rfl⟩ := hmem
      refine ⟨hdry, by decide, _, _, rfl, Tree.readBytes_writeFile hwr,
        ⟨_, _, _, List.mem_cons_self, harch.2, rfl⟩, ?_⟩
      intro o ho
      cases ho <;> rfl
    | archivingFailed | hashesUnread | manifestUnwritten | dryRun =>
      simp [archiveCall] at hmem
    | _ => cases hmem

end Contract

theorem execute_cleanup (archive : Host → List Path → Path → ToolRun)
    (submit : Host → Path → ToolRun) (config : Config.Settings) (host : Host) (root : Path)
    (options : RunOptions) :
    let out := (Run.execute (Toolbox.recording archive submit) config host root options).run []
    CleanupContract host options out.1.1 out.1.2.1 := by
  intro out
  unfold out Run.execute
  cases hw : createWorkDir host.tree host.cwd options.tempRoot with
  | error e =>
    refine ⟨fun _ _ => ⟨rfl, rfl⟩, ⟨rfl, rfl, rfl⟩, fun _ _ h => ?_, fun _ _ h => ?_⟩ <;>
      · rw [hw] at h
        cases h
  | ok res =>
    obtain ⟨t0, work⟩ := res
    rcases hrun : Run.exec (Run.stages (Toolbox.recording archive submit) config root options work)
        ⟨{ host with tree := t0 }, if options.leakTemp then [Event.workDirKept work] else [], 0⟩
        [] with ⟨⟨result, p⟩, calls⟩
    -- the stages kept all of the progress they started from but the tree
    have hext := Run.stages_keeps archive submit config root options work
      ⟨{ host with tree := t0 }, if options.leakTemp then [Event.workDirKept work] else [], 0⟩ []
    rw [hrun] at hext
    obtain ⟨hcwd, henv, huser, rest, hrest, hkept⟩ := hext
    dsimp only at hcwd henv huser hrest
    unfold Run.exec at hrun
    simp only [StateT.run_bind, hrun]
    refine ⟨fun _ h => ?_, ⟨hcwd, henv, huser⟩, fun t w h => ?_, fun t w h hleak => ?_⟩ <;>
      rw [hw] at h
    · cases h
    · obtain ⟨-, rfl⟩ := Prod.mk.inj (Except.ok.inj h)
      exact ⟨rest, hrest, hkept⟩
    · obtain ⟨-, rfl⟩ := Prod.mk.inj (Except.ok.inj h)
      obtain ⟨n, rfl⟩ := createWorkDir_ok hw
      simp only [hleak, Bool.false_eq_true, if_false]
      exact fun q e hq => Tree.lstat_removeDirAll_getD (endsInName_join_workDirName _ n) hq

/-- A run keeps `RunContract` and `CleanupContract`: what its marks, result and tool calls
promise, that it changes only the host's files, and that its work directory is gone at the
end unless it is kept. -/
theorem execute_contract (archive : Host → List Path → Path → ToolRun)
    (submit : Host → Path → ToolRun) (config : Config.Settings) (host : Host) (root : Path)
    (options : RunOptions) :
    let out := (Run.execute (Toolbox.recording archive submit) config host root options).run []
    RunContract archive config host root options (out.1.2.1.filterMap Event.mark?) out.1.2.2
      out.2 ∧ CleanupContract host options out.1.1 out.1.2.1 :=
  ⟨(execute_end archive submit config host root options).contract,
    execute_cleanup archive submit config host root options⟩

end TestDispatch.Task
