import TestDispatch.Task.Run
import TestDispatch.Proofs.Fs.Write
import TestDispatch.Proofs.Except
/-! How a run ends: the tools are any functions of what they are given, one lemma per step says
what it does, and `Run.execute` ends in one of the ways of `RunEnd`. -/
namespace TestDispatch.Task

open TestDispatch.Fs TestDispatch.Tool TestDispatch.Project

inductive ToolCall
  | archive (host : Host) (descriptors : List Path) (hashesFile : Path)
  | submit (host : Host) (manifestFile : Path)

def ToolCall.isArchive : ToolCall → Bool
  | .archive .. => true
  | .submit .. => false

abbrev Recorded := StateM (List ToolCall)

/-- Tools that answer as `archive` and `submit` say and record every call, in order. -/
def Toolbox.recording (archive : Host → List Path → Path → ToolRun)
    (submit : Host → Path → ToolRun) : Toolbox Recorded :=
  ⟨fun host ds hf => do modify (· ++ [.archive host ds hf]); pure (archive host ds hf),
   fun host mf => do modify (· ++ [.submit host mf]); pure (submit host mf)⟩

namespace Run

def exec {α : Type} (x : RunM Recorded α) (p : Progress) (calls : List ToolCall) :
    (Except PipelineError α × Progress) × List ToolCall :=
  (x.run.run p).run calls

section Exec

variable {α β : Type} (p : Progress) (c : List ToolCall)

@[simp] theorem exec_bind (x : RunM Recorded α) (f : α → RunM Recorded β) :
    exec (x >>= f) p c = match exec x p c with
      | ((.ok a, p'), c') => exec (f a) p' c'
      | ((.error e, p'), c') => ((.error e, p'), c') := by
  simp only [exec, ExceptT.run_bind, StateT.run_bind]
  rcases (x.run.run p).run c with ⟨⟨_ | a, p'⟩, c'⟩ <;> rfl

@[simp] theorem exec_pure (a : α) : exec (pure a : RunM Recorded α) p c = ((.ok a, p), c) := rfl

@[simp] theorem exec_throw (e : PipelineError) :
    exec (throw e : RunM Recorded α) p c = ((.error e, p), c) := rfl

@[simp] theorem exec_get : exec (get : RunM Recorded Progress) p c = ((.ok p, p), c) := rfl

@[simp] theorem exec_modify (f : Progress → Progress) :
    exec (modify f : RunM Recorded PUnit) p c = ((.ok ⟨⟩, f p), c) := rfl

@[simp] theorem exec_liftExcept (r : Except PipelineError α) :
    exec (stages.liftExcept r : RunM Recorded α) p c = ((r, p), c) := by
  cases r <;> rfl

@[simp] theorem exec_archive (archive submit) (h : Host) (ds : List Path) (hf : Path) :
    exec (StateT.lift (ExceptT.lift ((Toolbox.recording archive submit).archive h ds hf)) :
        RunM Recorded ToolRun) p c =
      ((.ok (archive h ds hf), p), c ++ [.archive h ds hf]) := rfl

@[simp] theorem exec_submit (archive submit) (h : Host) (mf : Path) :
    exec (StateT.lift (ExceptT.lift ((Toolbox.recording archive submit).submit h mf)) :
        RunM Recorded ToolRun) p c =
      ((.ok (submit h mf), p), c ++ [.submit h mf]) := rfl

@[simp] theorem exec_begin (s : Stage) :
    exec (begin s : RunM Recorded Nat) p c =
      ((.ok p.clock, { p with events := p.events ++ [.stageStarted s] }), c) := rfl

@[simp] theorem exec_finish (s : Stage) (started : Nat) :
    exec (finish s started : RunM Recorded Unit) p c =
      ((.ok (), { p with events := p.events ++ [.stageCompleted s (p.clock - started)] }), c) := rfl

@[simp] theorem exec_report (e : Event) :
    exec (report e : RunM Recorded Unit) p c =
      ((.ok (), { p with events := p.events ++ [e] }), c) := rfl

@[simp] theorem exec_files :
    exec (files : RunM Recorded (Tree × List String)) p c =
      ((.ok (p.host.tree, p.host.cwd), p), c) := rfl

@[simp] theorem exec_setTree (t : Tree) :
    exec (setTree t : RunM Recorded Unit) p c =
      ((.ok (), { p with host := { p.host with tree := t } }), c) := rfl

@[simp] theorem exec_absorb (r : ToolRun) (failed : ProcessError → PipelineError) :
    exec (absorb r failed : RunM Recorded Unit) p c =
      ((match r.ending with
        | .interrupted => .error .interrupted
        | .finished (.error e) => .error (failed e)
        | .finished (.ok ()) => .ok (),
        ⟨{ p.host with tree := r.tree }, p.events ++ r.lines.map .toolOutput,
          p.clock + r.elapsed⟩), c) := by
  rcases r with ⟨tree, lines, (_ | ⟨⟩) | _, elapsed⟩ <;> rfl

end Exec

end Run

/-- What the steps of a run keep of its progress: the host's working directory, environment and
user, and the events so far, after which none reports a kept work directory. -/
def Progress.Extends (p p' : Progress) : Prop :=
  p'.host.cwd = p.host.cwd ∧ p'.host.env = p.host.env ∧ p'.host.userHome = p.host.userHome ∧
    ∃ new, p'.events = p.events ++ new ∧ ∀ w, Event.workDirKept w ∉ new

theorem Progress.Extends.refl (p : Progress) : p.Extends p :=
  ⟨rfl, rfl, rfl, [], by simp, by simp⟩

theorem Progress.Extends.trans {p₁ p₂ p₃ : Progress} (h₁ : p₁.Extends p₂)
    (h₂ : p₂.Extends p₃) : p₁.Extends p₃ := by
  obtain ⟨hc₁, he₁, hu₁, n₁, hn₁, hk₁⟩ := h₁
  obtain ⟨hc₂, he₂, hu₂, n₂, hn₂, hk₂⟩ := h₂
  refine ⟨hc₂.trans hc₁, he₂.trans he₁, hu₂.trans hu₁, n₁ ++ n₂,
    by rw [hn₂, hn₁, List.append_assoc], fun w hw => ?_⟩
  rcases List.mem_append.mp hw with h | h
  · exact hk₁ w h
  · exact hk₂ w h

namespace Run

/-- Steps that extend every progress they start from, whatever the tools answer. -/
def Keeps {α : Type} (x : RunM Recorded α) : Prop :=
  ∀ (p : Progress) (c : List ToolCall), p.Extends (exec x p c).1.2

namespace Keeps

variable {α β : Type}

theorem bind {x : RunM Recorded α} {f : α → RunM Recorded β} (hx : Keeps x)
    (hf : ∀ a, Keeps (f a)) : Keeps (x >>= f) := by
  intro p c
  have h := hx p c
  rw [exec_bind]
  rcases hrun : exec x p c with ⟨⟨_ | a, p'⟩, c'⟩
  all_goals rw [hrun] at h
  · exact h
  · exact h.trans (hf a p' c')

theorem pure (a : α) : Keeps (pure a : RunM Recorded α) := fun p _ => .refl p

theorem throw (e : PipelineError) : Keeps (throw e : RunM Recorded α) := fun p _ => .refl p

theorem get : Keeps (get : RunM Recorded Progress) := fun p _ => .refl p

theorem files : Keeps (files : RunM Recorded (Tree × List String)) := fun p _ => .refl p

theorem liftExcept (r : Except PipelineError α) :
    Keeps (stages.liftExcept r : RunM Recorded α) := by
  intro p c
  rw [exec_liftExcept]
  exact .refl p

theorem report {e : Event} (he : ∀ w, e ≠ .workDirKept w) :
    Keeps (report e : RunM Recorded Unit) := by
  intro p c
  rw [exec_report]
  exact ⟨rfl, rfl, rfl, [e], rfl, by simpa [eq_comm] using he⟩

theorem begin (s : Stage) : Keeps (begin s : RunM Recorded Nat) := by
  intro p c
  rw [exec_begin]
  exact ⟨rfl, rfl, rfl, [_], rfl, by simp⟩

theorem finish (s : Stage) (started : Nat) : Keeps (finish s started : RunM Recorded Unit) := by
  intro p c
  rw [exec_finish]
  exact ⟨rfl, rfl, rfl, [_], rfl, by simp⟩

theorem setTree (t : Tree) : Keeps (setTree t : RunM Recorded Unit) := by
  intro p c
  rw [exec_setTree]
  exact ⟨rfl, rfl, rfl, [], by simp, by simp⟩

theorem absorb (r : ToolRun) (failed : ProcessError → PipelineError) :
    Keeps (absorb r failed : RunM Recorded Unit) := by
  intro p c
  rw [exec_absorb]
  exact ⟨rfl, rfl, rfl, _, rfl, by simp⟩

theorem archive (archive submit) (h : Host) (ds : List Path) (hf : Path) :
    Keeps (StateT.lift (ExceptT.lift ((Toolbox.recording archive submit).archive h ds hf)) :
      RunM Recorded ToolRun) := by
  intro p c
  rw [exec_archive]
  exact .refl p

theorem submit (archive submit) (h : Host) (mf : Path) :
    Keeps (StateT.lift (ExceptT.lift ((Toolbox.recording archive submit).submit h mf)) :
      RunM Recorded ToolRun) := by
  intro p c
  rw [exec_submit]
  exact .refl p

end Keeps

/-- The stages change only the host's file system, and report no kept work directory. -/
theorem stages_keeps (archive : Host → List Path → Path → ToolRun)
    (submit : Host → Path → ToolRun) (config : Config.Settings) (root : Path)
    (options : RunOptions) (work : Path) :
    Keeps (stages (Toolbox.recording archive submit) config root options work) := by
  unfold stages
  dsimp only
  -- take the steps apart: binds, the branches of matches and conditions, then one step each
  repeat' first
    | with_reducible apply Keeps.bind
    | with_reducible exact Keeps.get | with_reducible exact Keeps.files
    | with_reducible exact Keeps.pure _ | with_reducible exact Keeps.throw _
    | with_reducible exact Keeps.liftExcept _ | with_reducible exact Keeps.begin _
    | with_reducible exact Keeps.finish _ _ | with_reducible exact Keeps.setTree _
    | with_reducible exact Keeps.absorb _ _ | with_reducible exact Keeps.archive _ _ _ _ _
    | with_reducible exact Keeps.submit _ _ _ _
    | with_reducible exact Keeps.report (by simp)
    | with_reducible intro _
    | split

end Run

inductive Mark
  | start
  | finish
  | skip
deriving DecidableEq, Repr

@[simp] def Event.mark? : Event → Option (Stage × Mark)
  | .stageStarted s => some (s, .start)
  | .stageCompleted s _ => some (s, .finish)
  | .stageSkipped s _ => some (s, .skip)
  | _ => none

@[simp] theorem mark?_comp_toolOutput : Event.mark? ∘ Event.toolOutput = fun _ => none := rfl

def Stage.completedMarks (k : Nat) : List (Stage × Mark) :=
  (Stage.all.take k).flatMap fun s => [(s, .start), (s, .finish)]

/-- A tool run that did not succeed, and the failure the run reports for it: an interruption,
or the tool's own failure wrapped by `failed`. -/
inductive ToolFailed (failed : ProcessError → PipelineError) : ToolEnd → PipelineError → Prop
  | interrupted : ToolFailed failed .interrupted .interrupted
  | failed (e : ProcessError) : ToolFailed failed (.finished (.error e)) (failed e)

theorem ToolFailed.eq {failed : ProcessError → PipelineError} {ending : ToolEnd}
    {e : PipelineError} (h : ToolFailed failed ending e) :
    e = .interrupted ∨ ∃ pe, e = failed pe := by
  cases h with
  | interrupted => exact .inl rfl
  | failed pe => exact .inr ⟨pe, rfl⟩

section Ending

variable (archive : Host → List Path → Path → ToolRun) (submit : Host → Path → ToolRun)
  (config : Config.Settings) (host : Host) (root : Path) (options : RunOptions)

/-- The run got through packaging: it made the work directory `work` in `t0`, loaded `model`
and packaged the tasks `packaged`, leaving `t1`. -/
def Packaged (t0 : Tree) (work : Path) (model : ProjectModel) (t1 : Tree)
    (packaged : List PackagedTest) : Prop :=
  createWorkDir host.tree host.cwd options.tempRoot = .ok (t0, work) ∧
    ProjectModel.load t0 host.cwd root options.project = .ok model ∧
    (TaskPackager.ofConfig config).package t0 host.cwd model work = .ok (t1, packaged)

def archiveCall (t1 : Tree) (work : Path) (packaged : List PackagedTest) : ToolCall :=
  .archive { host with tree := t1 } (packaged.map (·.genFile)) (work.join hashesFileName)

abbrev archiveRun (t1 : Tree) (work : Path) (packaged : List PackagedTest) : ToolRun :=
  archive { host with tree := t1 } (packaged.map (·.genFile)) (work.join hashesFileName)

abbrev hashesRead (t1 : Tree) (work : Path) (packaged : List PackagedTest) :
    Except PipelineError (List (String × String)) :=
  readHashes (work.join hashesFileName) ((archiveRun archive host t1 work packaged).tree.readBytes
    host.cwd (work.join hashesFileName).text)

/-- The archiver succeeded and left the hash mapping `hashes` in its file. -/
def Archived (t1 : Tree) (work : Path) (packaged : List PackagedTest)
    (hashes : List (String × String)) : Prop :=
  (archiveRun archive host t1 work packaged).ending = .finished (.ok ()) ∧
    hashesRead archive host t1 work packaged = .ok hashes

def submitCall (t2 : Tree) (work : Path) : ToolCall :=
  .submit { host with tree := t2 } (work.join manifestFileName)

abbrev submitRun (t2 : Tree) (work : Path) : ToolRun :=
  submit { host with tree := t2 } (work.join manifestFileName)

abbrev manifestOf (hashes : List (String × String)) : TaskManifest :=
  TaskManifest.ofHashes hashes config.taskTimeoutSecs

/-- How a run ends: its stage marks, its result and its tool calls, for each way out. -/
inductive RunEnd : List (Stage × Mark) → Except PipelineError Outcome → List ToolCall → Prop
  | workDirFailed {e} : createWorkDir host.tree host.cwd options.tempRoot = .error e →
      RunEnd [] (.error e) []
  | discoveryFailed {t0 work e} :
      createWorkDir host.tree host.cwd options.tempRoot = .ok (t0, work) →
      ProjectModel.load t0 host.cwd root options.project = .error e →
      RunEnd [(.discovery, .start)] (.error (.core (.project e))) []
  | packagingFailed {t0 work model e} :
      createWorkDir host.tree host.cwd options.tempRoot = .ok (t0, work) →
      ProjectModel.load t0 host.cwd root options.project = .ok model →
      (TaskPackager.ofConfig config).package t0 host.cwd model work = .error e →
      RunEnd (Stage.completedMarks 1 ++ [(.packaging, .start)]) (.error e) []
  | noTests {t0 work model t1} : Packaged config host root options t0 work model t1 [] →
      RunEnd (Stage.completedMarks 2)
        (.error (.noTestsFound model.root options.project.includePatterns
          options.project.excludePatterns)) []
  | archivingFailed {t0 work model t1 packaged e} :
      Packaged config host root options t0 work model t1 packaged → packaged ≠ [] →
      ToolFailed .archiveFailed (archiveRun archive host t1 work packaged).ending e →
      RunEnd (Stage.completedMarks 2 ++ [(.archiving, .start)]) (.error e)
        [archiveCall host t1 work packaged]
  | hashesUnread {t0 work model t1 packaged e} :
      Packaged config host root options t0 work model t1 packaged → packaged ≠ [] →
      (archiveRun archive host t1 work packaged).ending = .finished (.ok ()) →
      hashesRead archive host t1 work packaged = .error e →
      RunEnd (Stage.completedMarks 3 ++ [(.manifest, .start)]) (.error e)
        [archiveCall host t1 work packaged]
  | manifestUnwritten {t0 work model t1 packaged hashes e} :
      Packaged config host root options t0 work model t1 packaged → packaged ≠ [] →
      Archived archive host t1 work packaged hashes →
      (archiveRun archive host t1 work packaged).tree.writeFile host.cwd
        (work.join manifestFileName).text (Text.Utf8.bytes (manifestOf config hashes).text) =
        .error e →
      RunEnd (Stage.completedMarks 3 ++ [(.manifest, .start)]) (.error (.io e))
        [archiveCall host t1 work packaged]
  | dryRun {t0 work model t1 packaged hashes t2} :
      Packaged config host root options t0 work model t1 packaged → packaged ≠ [] →
      Archived archive host t1 work packaged hashes →
      (archiveRun archive host t1 work packaged).tree.writeFile host.cwd
        (work.join manifestFileName).text (Text.Utf8.bytes (manifestOf config hashes).text) =
        .ok t2 →
      options.dryRun = true →
      RunEnd (Stage.completedMarks 4 ++ [(.submission, .skip)])
        (.ok ⟨model.modules.length, manifestOf config hashes, false,
          if options.leakTemp then some work else none⟩)
        [archiveCall host t1 work packaged]
  | submissionFailed {t0 work model t1 packaged hashes t2 e} :
      Packaged config host root options t0 work model t1 packaged → packaged ≠ [] →
      Archived archive host t1 work packaged hashes →
      (archiveRun archive host t1 work packaged).tree.writeFile host.cwd
        (work.join manifestFileName).text (Text.Utf8.bytes (manifestOf config hashes).text) =
        .ok t2 →
      options.dryRun = false →
      ToolFailed .submitFailed (submitRun submit host t2 work).ending e →
      RunEnd (Stage.completedMarks 4 ++ [(.submission, .start)]) (.error e)
        [archiveCall host t1 work packaged, submitCall host t2 work]
  | submitted {t0 work model t1 packaged hashes t2} :
      Packaged config host root options t0 work model t1 packaged → packaged ≠ [] →
      Archived archive host t1 work packaged hashes →
      (archiveRun archive host t1 work packaged).tree.writeFile host.cwd
        (work.join manifestFileName).text (Text.Utf8.bytes (manifestOf config hashes).text) =
        .ok t2 →
      options.dryRun = false →
      (submitRun submit host t2 work).ending = .finished (.ok ()) →
      RunEnd (Stage.completedMarks 5)
        (.ok ⟨model.modules.length, manifestOf config hashes, true,
          if options.leakTemp then some work else none⟩)
        [archiveCall host t1 work packaged, submitCall host t2 work]

theorem stages_end {t0 : Tree} {work : Path}
    (hw : createWorkDir host.tree host.cwd options.tempRoot = .ok (t0, work))
    {events : List Event} (hevents : events.filterMap Event.mark? = [])
    {result : Except PipelineError Outcome} {p : Progress} {calls : List ToolCall}
    (h : Run.exec (Run.stages (Toolbox.recording archive submit) config root options work)
      ⟨{ host with tree := t0 }, events, 0⟩ [] = ((result, p), calls)) :
    RunEnd archive submit config host root options (p.events.filterMap Event.mark?) result
      calls := by
  -- run the stages symbolically, splitting where the run branches
  simp only [Run.stages, hashesToManifest, TaskManifest.write, Run.exec_bind, Run.exec_get,
    Run.exec_begin, Run.exec_files] at h
  cases hl : ProjectModel.load t0 host.cwd root options.project with
  | error e =>
    simp [hl, Except.mapError] at h
    obtain ⟨⟨rfl, rfl⟩, rfl⟩ := h
    simp [hevents]
    exact .discoveryFailed hw hl
  | ok model =>
  simp [hl, Except.mapError] at h
  cases hp : (TaskPackager.ofConfig config).package t0 host.cwd model work with
  | error e =>
    simp [hp] at h
    obtain ⟨⟨rfl, rfl⟩, rfl⟩ := h
    simp [hevents]
    exact .packagingFailed hw hl hp
  | ok res =>
  obtain ⟨t1, packaged⟩ := res
  have hpk : Packaged config host root options t0 work model t1 packaged := ⟨hw, hl, hp⟩
  simp [hp] at h
  by_cases hne : packaged = []
  · subst hne
    simp at h
    obtain ⟨⟨rfl, rfl⟩, rfl⟩ := h
    simp [hevents]
    exact .noTests hpk
  simp [hne] at h
  cases hend : (archiveRun archive host t1 work packaged).ending with
  | interrupted =>
    simp [hend] at h
    obtain ⟨⟨rfl, rfl⟩, rfl⟩ := h
    simp [hevents]
    exact .archivingFailed hpk hne (by rw [hend]; exact .interrupted)
  | finished r =>
  cases r with
  | error pe =>
    simp [hend] at h
    obtain ⟨⟨rfl, rfl⟩, rfl⟩ := h
    simp [hevents]
    exact .archivingFailed hpk hne (by rw [hend]; exact .failed pe)
  | ok u =>
  simp [hend] at h
  cases hh : hashesRead archive host t1 work packaged with
  | error e =>
    simp [hh] at h
    obtain ⟨⟨rfl, rfl⟩, rfl⟩ := h
    simp [hevents]
    exact .hashesUnread hpk hne hend hh
  | ok hashes =>
  have harch : Archived archive host t1 work packaged hashes := ⟨hend, hh⟩
  simp [hh] at h
  cases hwr : (archiveRun archive host t1 work packaged).tree.writeFile host.cwd
      (work.join manifestFileName).text (Text.Utf8.bytes (manifestOf config hashes).text) with
  | error e =>
    simp [hwr] at h
    obtain ⟨⟨rfl, rfl⟩, rfl⟩ := h
    simp [hevents]
    exact .manifestUnwritten hpk hne harch hwr
  | ok t2 =>
  simp [hwr] at h
  cases hdry : options.dryRun with
  | true =>
    simp [hdry] at h
    obtain ⟨⟨rfl, rfl⟩, rfl⟩ := h
    simp [hevents]
    exact .dryRun hpk hne harch hwr hdry
  | false =>
  simp [hdry] at h
  cases hsend : (submitRun submit host t2 work).ending with
  | interrupted =>
    simp [hsend] at h
    obtain ⟨⟨rfl, rfl⟩, rfl⟩ := h
    simp [hevents]
    exact .submissionFailed hpk hne harch hwr hdry (by rw [hsend]; exact .interrupted)
  | finished r =>
  cases r with
  | error pe =>
    simp [hsend] at h
    obtain ⟨⟨rfl, rfl⟩, rfl⟩ := h
    simp [hevents]
    exact .submissionFailed hpk hne harch hwr hdry (by rw [hsend]; exact .failed pe)
  | ok u =>
    simp [hsend] at h
    obtain ⟨⟨rfl, rfl⟩, rfl⟩ := h
    simp [hevents]
    exact .submitted hpk hne harch hwr hdry hsend

theorem execute_end :
    let out := (Run.execute (Toolbox.recording archive submit) config host root options).run []
    RunEnd archive submit config host root options (out.1.2.1.filterMap Event.mark?) out.1.2.2
      out.2 := by
  intro out
  unfold out Run.execute
  cases hw : createWorkDir host.tree host.cwd options.tempRoot with
  | error e => exact .workDirFailed hw
  | ok res =>
    obtain ⟨t0, work⟩ := res
    have hkept : (if options.leakTemp then [Event.workDirKept work] else []).filterMap
        Event.mark? = [] := by
      cases options.leakTemp <;> rfl
    rcases hrun : Run.exec (Run.stages (Toolbox.recording archive submit) config root options work)
        ⟨{ host with tree := t0 }, if options.leakTemp then [Event.workDirKept work] else [], 0⟩
        [] with ⟨⟨result, p⟩, calls⟩
    have hend := stages_end archive submit config host root options hw hkept hrun
    unfold Run.exec at hrun
    simp only [StateT.run_bind, hrun]
    exact hend

end Ending

end TestDispatch.Task
