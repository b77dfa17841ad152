import TestDispatch.Cli.Session
import TestDispatch.Proofs.Except
import Mathlib.Data.List.DropRight
/-! Loading the settings file: each outcome is the result exactly when every stage before it
passed (`load_first_failure`). -/
namespace TestDispatch.Config

open TestDispatch.Fs TestDispatch.Tool

inductive Key
  | isolateServer
  | isolatePath
  | distTestClientPath
  | taskTimeoutSecs
  | processTimeoutSecs
  | java
  | junitRunner
deriving DecidableEq, Repr

namespace Key

def name : Key → String
  | isolateServer => "isolate_server"
  | isolatePath => "isolate_path"
  | distTestClientPath => "dist_test_client_path"
  | taskTimeoutSecs => "task_timeout_secs"
  | processTimeoutSecs => "process_timeout_secs"
  | java => "java"
  | junitRunner => "junit_runner"

def isCount : Key → Bool
  | taskTimeoutSecs | processTimeoutSecs => true
  | _ => false

def accepts (k : Key) : Toml.Node → Bool
  | .value (.string _) => !k.isCount
  | .value (.integer i) => k.isCount && decide (0 ≤ i)
  | _ => false

end Key

def Settings.setting (c : Settings) : Key → Toml.Value
  | .isolateServer => .string c.isolateServer
  | .isolatePath => .string c.isolatePath
  | .distTestClientPath => .string c.distTestClientPath
  | .taskTimeoutSecs => .integer c.taskTimeoutSecs
  | .processTimeoutSecs => .integer c.processTimeoutSecs
  | .java => .string c.java
  | .junitRunner => .string c.junitRunner

/-- The settings `c` are what the document `d` says: each setting the document holds has its
value in `c`, and each it does not hold has its default. Other keys play no part. -/
def Reads (d : Toml.Doc) (c : Settings) : Prop :=
  ∀ k : Key, d.top k.name = some (.value (c.setting k)) ∨
    (d.top k.name = none ∧ c.setting k = ({} : Settings).setting k)

def trimSpace (s : String) : List Char :=
  (s.toList.dropWhile isUnicodeSpace).rdropWhile isUnicodeSpace

/-- Why a server address is refused: it is no URL, or its scheme is neither `http` nor `https`. -/
def serverFault (server : String) : Option String :=
  match Url.parseScheme server with
  | .error e => some e.message
  | .ok s => if s = "http" ∨ s = "https" then none
    else some s!"unsupported scheme '{s}', expected http or https"

def blankCheck (command : String × String) : String × Option String :=
  (command.1, if trimSpace command.2 = [] then some "cannot be empty" else none)

def Settings.checks (c : Settings) : List (String × Option String) :=
  ("isolate_server", serverFault c.isolateServer) ::
    c.commands.map blankCheck ++
    [("task_timeout_secs", if 0 < c.taskTimeoutSecs then none else some "must be greater than zero"),
      ("process_timeout_secs",
        if 0 < c.processTimeoutSecs then none else some "must be greater than zero")]

/-- `field` and `msg` are those of the first check of `checks` that fails. -/
def FirstFault (checks : List (String × Option String)) (field msg : String) : Prop :=
  ∃ pre rest, checks = pre ++ (field, some msg) :: rest ∧ ∀ x ∈ pre, x.2 = none

def WellTyped (d : Toml.Doc) : Prop :=
  ∀ (k : Key) (n : Toml.Node), d.top k.name = some n → k.accepts n = true

/-- A failure to read the settings: a TOML error, where a setting has a value of the wrong
type. -/
def BadSetting (d : Toml.Doc) (e : ConfigError) : Prop :=
  (∃ m, e = .tomlError m) ∧ ∃ (k : Key) (n : Toml.Node), d.top k.name = some n ∧ k.accepts n = false

def runChecks : List (String × Option String) → Except ConfigError Unit
  | [] => .ok ()
  | (_, none) :: rest => runChecks rest
  | (field, some msg) :: _ => .error (.invalidValue field msg)

def FileAt (host : Host) (path : Path) (bytes : List UInt8) : Prop :=
  ∃ p mode, host.tree.stat host.cwd path.text = .ok (p, .file bytes mode)

def TextAt (host : Host) (path : Path) (text : String) : Prop :=
  ∃ bytes, FileAt host path bytes ∧ Text.Utf8.text? bytes = some text

/-- What loading the settings at `path` gives, outcome by outcome: each is the result exactly
when every stage before it passed and its own stage failed. -/
structure LoadOutcome (host : Host) (path : Path) (r : Except ConfigError Settings) : Prop where
  notFound : r = .error (.notFound path) ↔ ∀ p e, host.tree.stat host.cwd path.text ≠ .ok (p, e)
  notAFile : r = .error (.notAFile path) ↔
    ∃ p e, host.tree.stat host.cwd path.text = .ok (p, e) ∧ e.kind ≠ .file
  notText : r = .error (.io .invalidUtf8) ↔
    ∃ bytes, FileAt host path bytes ∧ Text.Utf8.text? bytes = none
  tomlError : (∃ m, r = .error (.tomlError m)) ↔ ∃ text, TextAt host path text ∧
    (Toml.parse text = none ∨ ∃ d, Toml.parse text = some d ∧
      ∃ (k : Key) (n : Toml.Node), d.top k.name = some n ∧ k.accepts n = false)
  invalidValue : ∀ field msg, r = .error (.invalidValue field msg) ↔ ∃ text d c,
    TextAt host path text ∧ Toml.parse text = some d ∧ Reads d c ∧ FirstFault c.checks field msg
  ok : ∀ c, r = .ok c ↔ ∃ text d, TextAt host path text ∧ Toml.parse text = some d ∧ Reads d c ∧
    ∀ x ∈ c.checks, x.2 = none

section Checks

theorem trimSpace_eq_nil {s : String} : trimSpace s = [] ↔ isBlankText s = true := by
  rw [trimSpace, List.rdropWhile_eq_nil_iff, ← List.dropWhile_eq_nil_iff, List.dropWhile_idempotent,
    List.dropWhile_eq_nil_iff, isBlankText, List.all_eq_true]

theorem runChecks_append (l₁ l₂ : List (String × Option String)) :
    runChecks (l₁ ++ l₂) = runChecks l₁ >>= fun _ => runChecks l₂ := by
  induction l₁ with
  | nil => rfl
  | cons x l₁ ih =>
    obtain ⟨field, _ | msg⟩ := x
    · simpa [runChecks] using ih
    · rfl

theorem runChecks_eq_ok {l : List (String × Option String)} :
    runChecks l = .ok () ↔ ∀ x ∈ l, x.2 = none := by
  induction l with
  | nil => simp [runChecks]
  | cons x l ih =>
    obtain ⟨field, _ | msg⟩ := x
    · simp [runChecks, ih]
    · simp [runChecks]

theorem runChecks_eq_error {l : List (String × Option String)} {e : ConfigError} :
    runChecks l = .error e ↔ ∃ field msg, e = .invalidValue field msg ∧ FirstFault l field msg := by
  induction l with
  | nil => simp [runChecks, FirstFault]
  | cons x l ih =>
    obtain ⟨field, _ | msg⟩ := x
    · rw [runChecks, ih]
      constructor
      · rintro ⟨f, m, rfl, pre, rest, rfl, hpre⟩
        refine ⟨f, m, rfl, (field, none) :: pre, rest, rfl, ?_⟩
        simpa using hpre
      · rintro ⟨f, m, rfl, pre, rest, hl, hpre⟩
        cases pre with
        | nil => simp at hl
        | cons y pre =>
          simp only [List.cons_append, List.cons.injEq] at hl
          obtain ⟨rfl, rfl⟩ := hl
          exact ⟨f, m, rfl, pre, rest, rfl, fun x hx => hpre x (List.mem_cons_of_mem _ hx)⟩
    · simp only [runChecks, Except.error.injEq]
      constructor
      · rintro rfl
        exact ⟨field, msg, rfl, [], l, rfl, by simp⟩
      · rintro ⟨f, m, rfl, pre, rest, hl, hpre⟩
        cases pre with
        | nil =>
          simp only [List.nil_append, List.cons.injEq, Prod.mk.injEq, Option.some.injEq] at hl
          obtain ⟨⟨rfl, rfl⟩, -⟩ := hl
          rfl
        | cons y pre =>
          simp only [List.cons_append, List.cons.injEq] at hl
          obtain ⟨rfl, -⟩ := hl
          simp at hpre

theorem runChecks_blank_of_find? {l : List (String × String)} {field v : String}
    (h : l.find? (fun x => isBlankText x.2) = some (field, v)) :
    runChecks (l.map blankCheck) = .error (.invalidValue field "cannot be empty") := by
  induction l with
  | nil => cases h
  | cons x l ih =>
    obtain ⟨f, w⟩ := x
    by_cases hw : isBlankText w = true
    · simp only [List.find?_cons, hw, Option.some.injEq, Prod.mk.injEq] at h
      obtain ⟨rfl, rfl⟩ := h
      simp [blankCheck, trimSpace_eq_nil.mpr hw, runChecks]
    · simp only [List.find?_cons, hw] at h
      have hcheck : blankCheck (f, w) = (f, none) := by simp [blankCheck, trimSpace_eq_nil, hw]
      rw [List.map_cons, hcheck, runChecks]
      exact ih h

theorem runChecks_blank_of_find?_none {l : List (String × String)}
    (h : l.find? (fun x => isBlankText x.2) = none) : runChecks (l.map blankCheck) = .ok () := by
  rw [runChecks_eq_ok]
  intro x hx
  obtain ⟨⟨f, w⟩, hmem, rfl⟩ := List.mem_map.mp hx
  have hw : isBlankText w = false := by simpa using List.find?_eq_none.mp h _ hmem
  simp [blankCheck, trimSpace_eq_nil, hw]

theorem runChecks_server (c : Settings) :
    runChecks [("isolate_server", serverFault c.isolateServer)] =
      match Url.parseScheme c.isolateServer with
      | .error e => .error (.invalidValue "isolate_server" e.message)
      | .ok s => if s ≠ "http" ∧ s ≠ "https" then
          .error (.invalidValue "isolate_server" s!"unsupported scheme '{s}', expected http or https")
          else .ok () := by
  unfold serverFault
  cases Url.parseScheme c.isolateServer with
  | error e => rfl
  | ok s =>
    dsimp only
    by_cases hs : s = "http" ∨ s = "https"
    · have hn : ¬ (s ≠ "http" ∧ s ≠ "https") := fun ⟨h1, h2⟩ => hs.elim h1 h2
      rw [if_pos hs, if_neg hn]
      rfl
    · have hn : s ≠ "http" ∧ s ≠ "https" := ⟨fun h => hs (.inl h), fun h => hs (.inr h)⟩
      rw [if_neg hs, if_pos hn]
      rfl

theorem validate_eq_runChecks (c : Settings) : c.validate = runChecks c.checks := by
  have htimeout : ∀ (field : String) (n : Nat),
      runChecks [(field, if 0 < n then none else some "must be greater than zero")] =
        if n = 0 then .error (.invalidValue field "must be greater than zero") else .ok () := by
    intro field n
    cases n <;> rfl
  have hsplit : c.checks = [("isolate_server", serverFault c.isolateServer)] ++
      (c.commands.map blankCheck ++
        ([("task_timeout_secs", if 0 < c.taskTimeoutSecs then none else some "must be greater than zero")] ++
          [("process_timeout_secs",
            if 0 < c.processTimeoutSecs then none else some "must be greater than zero")])) := rfl
  rw [hsplit, runChecks_append, runChecks_append, runChecks_append, runChecks_server, htimeout,
    htimeout]
  simp only [Settings.validate]
  cases Url.parseScheme c.isolateServer with
  | error e => rfl
  | ok s =>
    -- past the server, the first blank command decides, then the two time limits in turn
    by_cases hs : s ≠ "http" ∧ s ≠ "https"
    · simp [hs]
    · cases hfind : c.commands.find? (fun x => isBlankText x.2) with
      | some x => simp [hs, runChecks_blank_of_find? hfind]
      | none => by_cases ht : c.taskTimeoutSecs = 0 <;> simp [hs, ht, runChecks_blank_of_find?_none hfind]

end Checks

section Settings

variable {d : Toml.Doc}

theorem stringSetting_eq_ok {key dflt s : String} :
    Settings.stringSetting d key dflt = .ok s ↔
      d.top key = some (.value (.string s)) ∨ (d.top key = none ∧ s = dflt) := by
  unfold Settings.stringSetting
  rcases d.top key with _ | ((_ | _ | _ | _ | _ | _ | _) | _ | _) <;> simp [eq_comm]

theorem countSetting_eq_ok {key : String} {dflt n : Nat} :
    Settings.countSetting d key dflt = .ok n ↔
      d.top key = some (.value (.integer n)) ∨ (d.top key = none ∧ n = dflt) := by
  unfold Settings.countSetting
  rcases d.top key with _ | ((_ | i | _ | _ | _ | _ | _) | _ | _) <;> simp [eq_comm]
  by_cases hneg : i < 0
  · simp only [hneg, if_true, reduceCtorEq, false_iff]
    omega
  · simp only [hneg, if_false, Except.ok.injEq]
    omega

theorem stringSetting_error {k : Key} (hk : k.isCount = false) {dflt : String} {e : ConfigError}
    (h : Settings.stringSetting d k.name dflt = .error e) : BadSetting d e := by
  suffices H : (∃ m, e = .tomlError m) ∧ ∃ n, d.top k.name = some n ∧ k.accepts n = false from
    ⟨H.1, k, H.2⟩
  unfold Settings.stringSetting at h
  rcases hn : d.top k.name with _ | ((_ | _ | _ | _ | _ | _ | _) | _ | _) <;> rw [hn] at h <;>
    cases h <;> simp [Key.accepts, hk]

theorem countSetting_error {k : Key} (hk : k.isCount = true) {dflt : Nat} {e : ConfigError}
    (h : Settings.countSetting d k.name dflt = .error e) : BadSetting d e := by
  suffices H : (∃ m, e = .tomlError m) ∧ ∃ n, d.top k.name = some n ∧ k.accepts n = false from
    ⟨H.1, k, H.2⟩
  unfold Settings.countSetting at h
  rcases hn : d.top k.name with _ | ((_ | i | _ | _ | _ | _ | _) | _ | _) <;> rw [hn] at h
  case some.value.integer =>
    by_cases hneg : i < 0
    · simp only [hneg, if_true, Except.error.injEq] at h
      subst h
      simp [Key.accepts, hk, Int.not_le.mpr hneg]
    · simp [hneg] at h
  all_goals cases h <;> simp [Key.accepts, hk]

theorem stringSetting_clause {k : Key} {c : Settings} {s dflt : String}
    (hs : c.setting k = .string s) (hdflt : ({} : Settings).setting k = .string dflt)
    (h : Settings.stringSetting d k.name dflt = .ok s) :
    d.top k.name = some (.value (c.setting k)) ∨
      (d.top k.name = none ∧ c.setting k = ({} : Settings).setting k) := by
  simpa [hs, hdflt] using stringSetting_eq_ok.mp h

theorem countSetting_clause {k : Key} {c : Settings} {n dflt : Nat}
    (hn : c.setting k = .integer n) (hdflt : ({} : Settings).setting k = .integer dflt)
    (h : Settings.countSetting d k.name dflt = .ok n) :
    d.top k.name = some (.value (c.setting k)) ∨
      (d.top k.name = none ∧ c.setting k = ({} : Settings).setting k) := by
  simpa only [hn, hdflt, Toml.Value.integer.injEq, Int.natCast_inj] using countSetting_eq_ok.mp h

theorem reads_of_ofDoc_eq_ok {c : Settings} (h : Settings.ofDoc d = .ok c) : Reads d c := by
  simp only [Settings.ofDoc] at h
  obtain ⟨s₁, h₁, h⟩ := Except.bind_eq_ok.mp h
  obtain ⟨s₂, h₂, h⟩ := Except.bind_eq_ok.mp h
  obtain ⟨s₃, h₃, h⟩ := Except.bind_eq_ok.mp h
  obtain ⟨n₄, h₄, h⟩ := Except.bind_eq_ok.mp h
  obtain ⟨n₅, h₅, h⟩ := Except.bind_eq_ok.mp h
  obtain ⟨s₆, h₆, h⟩ := Except.bind_eq_ok.mp h
  obtain ⟨s₇, h₇, h⟩ := Except.bind_eq_ok.mp h
  simp only [Except.pure_def, Except.ok.injEq] at h
  subst h
  intro k
  cases k
  · exact stringSetting_clause rfl rfl h₁
  · exact stringSetting_clause rfl rfl h₂
  · exact stringSetting_clause rfl rfl h₃
  · exact countSetting_clause rfl rfl h₄
  · exact countSetting_clause rfl rfl h₅
  · exact stringSetting_clause rfl rfl h₆
  · exact stringSetting_clause rfl rfl h₇

theorem Settings.ext_setting {c c' : Settings} (h : ∀ k, c.setting k = c'.setting k) : c = c' := by
  have h₄ := h .taskTimeoutSecs
  have h₅ := h .processTimeoutSecs
  simp only [Settings.setting, Toml.Value.integer.injEq, Int.natCast_inj] at h₄ h₅
  cases c
  cases c'
  simp only [Settings.mk.injEq]
  exact ⟨by simpa [Settings.setting] using h .isolateServer,
    by simpa [Settings.setting] using h .isolatePath,
    by simpa [Settings.setting] using h .distTestClientPath, h₄, h₅,
    by simpa [Settings.setting] using h .java, by simpa [Settings.setting] using h .junitRunner⟩

theorem Reads.unique {c c' : Settings} (h : Reads d c) (h' : Reads d c') : c = c' := by
  refine Settings.ext_setting fun k => ?_
  rcases h k with hk | ⟨hk, hdflt⟩ <;> rcases h' k with hk' | ⟨hk', hdflt'⟩
  · rw [hk] at hk'
    simpa using hk'
  · rw [hk] at hk'
    cases hk'
  · rw [hk] at hk'
    cases hk'
  · rw [hdflt, hdflt']

/-- Reading the settings fails only on a setting of the wrong type. -/
theorem ofDoc_error : ∀ e, Settings.ofDoc d = .error e → BadSetting d e := by
  simp only [Settings.ofDoc]
  refine Except.bind_error (fun e h => stringSetting_error (k := .isolateServer) rfl h) fun _ => ?_
  refine Except.bind_error (fun e h => stringSetting_error (k := .isolatePath) rfl h) fun _ => ?_
  refine Except.bind_error (fun e h => stringSetting_error (k := .distTestClientPath) rfl h)
    fun _ => ?_
  refine Except.bind_error (fun e h => countSetting_error (k := .taskTimeoutSecs) rfl h) fun _ => ?_
  refine Except.bind_error (fun e h => countSetting_error (k := .processTimeoutSecs) rfl h)
    fun _ => ?_
  refine Except.bind_error (fun e h => stringSetting_error (k := .java) rfl h) fun _ => ?_
  refine Except.bind_error (fun e h => stringSetting_error (k := .junitRunner) rfl h) fun _ => ?_
  intro e h
  cases h

theorem accepts_setting (c : Settings) (k : Key) : k.accepts (.value (c.setting k)) = true := by
  cases k <;> simp [Settings.setting, Key.accepts, Key.isCount]

theorem Reads.wellTyped {c : Settings} (h : Reads d c) : WellTyped d := by
  intro k n hn
  rcases h k with hk | ⟨hk, -⟩ <;> rw [hn] at hk <;> cases hk
  exact accepts_setting c k

/-- A document is read as settings exactly when no setting it holds has the wrong type. -/
theorem exists_ofDoc_eq_ok_iff : (∃ c, Settings.ofDoc d = .ok c) ↔ WellTyped d := by
  constructor
  · rintro ⟨c, h⟩
    exact (reads_of_ofDoc_eq_ok h).wellTyped
  · intro hw
    cases h : Settings.ofDoc d with
    | error e =>
      obtain ⟨-, k, n, hn, hk⟩ := ofDoc_error e h
      exact absurd (hw k n hn) (by simp [hk])
    | ok c => exact ⟨c, rfl⟩

theorem ofDoc_eq_ok {c : Settings} : Settings.ofDoc d = .ok c ↔ Reads d c := by
  refine ⟨reads_of_ofDoc_eq_ok, fun h => ?_⟩
  obtain ⟨c', hc'⟩ := exists_ofDoc_eq_ok_iff.mpr h.wellTyped
  rw [hc', (reads_of_ofDoc_eq_ok hc').unique h]

end Settings

section Load

variable {path : Path} {bytes : List UInt8} {text : String}

theorem validate_then_eq_ok {c c' : Settings} :
    (c'.validate >>= fun _ => pure c') = .ok c ↔ c' = c ∧ ∀ x ∈ c.checks, x.2 = none := by
  rw [validate_eq_runChecks]
  cases h : runChecks c'.checks with
  | error e =>
    simp only [Except.error_bind, reduceCtorEq, false_iff, not_and]
    rintro rfl
    rw [← runChecks_eq_ok, h]
    simp
  | ok u =>
    simp only [Except.ok_bind, Except.pure_def, Except.ok.injEq]
    constructor
    · rintro rfl
      exact ⟨rfl, runChecks_eq_ok.mp h⟩
    · rintro ⟨rfl, -⟩
      rfl

theorem validate_then_eq_error {c : Settings} {e : ConfigError} :
    (c.validate >>= fun _ => pure c) = .error e ↔
      ∃ field msg, e = .invalidValue field msg ∧ FirstFault c.checks field msg := by
  rw [validate_eq_runChecks, ← runChecks_eq_error]
  cases runChecks c.checks <;> simp

theorem load_contents_eq_ok (h : Text.Utf8.text? bytes = some text) {c : Settings} :
    Settings.load path (.contents bytes) = .ok c ↔
      ∃ d, Toml.parse text = some d ∧ Reads d c ∧ ∀ x ∈ c.checks, x.2 = none := by
  simp only [Settings.load, h, Settings.ofToml]
  cases hp : Toml.parse text with
  | none => simp
  | some d =>
    simp only [Option.some.injEq, exists_eq_left', ← ofDoc_eq_ok]
    cases Settings.ofDoc d with
    | error e => simp
    | ok c' => rw [Except.ok_bind, validate_then_eq_ok, Except.ok.injEq]

theorem load_contents_eq_invalidValue (h : Text.Utf8.text? bytes = some text) {field msg : String} :
    Settings.load path (.contents bytes) = .error (.invalidValue field msg) ↔
      ∃ d c, Toml.parse text = some d ∧ Reads d c ∧ FirstFault c.checks field msg := by
  simp only [Settings.load, h, Settings.ofToml]
  cases hp : Toml.parse text with
  | none => simp
  | some d =>
    simp only [Option.some.injEq, ← ofDoc_eq_ok]
    cases hd : Settings.ofDoc d with
    | error e =>
      obtain ⟨⟨m, rfl⟩, -⟩ := ofDoc_error e hd
      simp [hd]
    | ok c' =>
      rw [Except.ok_bind, validate_then_eq_error]
      simp [hd]

theorem load_contents_tomlError (h : Text.Utf8.text? bytes = some text) :
    (∃ m, Settings.load path (.contents bytes) = .error (.tomlError m)) ↔
      Toml.parse text = none ∨ ∃ d, Toml.parse text = some d ∧
        ∃ (k : Key) (n : Toml.Node), d.top k.name = some n ∧ k.accepts n = false := by
  simp only [Settings.load, h, Settings.ofToml]
  cases hp : Toml.parse text with
  | none => simp
  | some d =>
    simp only [Option.some.injEq, exists_eq_left', reduceCtorEq, false_or]
    cases hd : Settings.ofDoc d with
    | error e =>
      obtain ⟨⟨m, rfl⟩, hbad⟩ := ofDoc_error e hd
      simpa using hbad
    | ok c' =>
      have hw := (ofDoc_eq_ok.mp hd).wellTyped
      simp only [Except.ok_bind, validate_then_eq_error, reduceCtorEq, false_and, exists_false,
        false_iff, not_exists, not_and]
      intro k n hn hk
      simp [hw k n hn] at hk

theorem load_contents_error (h : Text.Utf8.text? bytes = some text) {e : ConfigError}
    (hl : Settings.load path (.contents bytes) = .error e) :
    (∃ m, e = .tomlError m) ∨ ∃ field msg, e = .invalidValue field msg := by
  simp only [Settings.load, h, Settings.ofToml] at hl
  cases hp : Toml.parse text with
  | none =>
    simp only [hp, Except.error_bind, Except.error.injEq] at hl
    exact .inl ⟨_, hl.symm⟩
  | some d =>
    simp only [hp] at hl
    cases hd : Settings.ofDoc d with
    | error e' =>
      simp only [hd, Except.error_bind, Except.error.injEq] at hl
      exact .inl (hl ▸ (ofDoc_error e' hd).1)
    | ok c' =>
      simp only [hd, Except.ok_bind, validate_then_eq_error] at hl
      obtain ⟨field, msg, rfl, -⟩ := hl
      exact .inr ⟨field, msg, rfl⟩

end Load

/-- Loading the settings at a path reports, in order: nothing there, something that is not a
regular file, bytes that are not UTF-8, text that is no document or gives a setting a value of
the wrong type, and then the first check the settings fail; it gives the settings exactly when
every check passes. -/
theorem load_first_failure (host : Host) (path : Path) :
    LoadOutcome host path (Settings.load path (Cli.configFound host path)) := by
  rcases hstat : host.tree.stat host.cwd path.text with e | ⟨p, _ | ⟨bytes, mode⟩ | target⟩
  · -- nothing at the path
    have hr : Settings.load path (Cli.configFound host path) = .error (.notFound path) := by
      simp [Cli.configFound, hstat, Settings.load]
    constructor <;> simp [hr, FileAt, TextAt, hstat]
  · -- a directory
    have hr : Settings.load path (Cli.configFound host path) = .error (.notAFile path) := by
      simp [Cli.configFound, hstat, Settings.load]
    constructor <;> simp [hr, FileAt, TextAt, hstat, Entry.kind]
  · -- a regular file
    have hr : Settings.load path (Cli.configFound host path) = Settings.load path (.contents bytes) := by
      simp [Cli.configFound, hstat]
    cases htext : Text.Utf8.text? bytes with
    | none =>
      have hr' : Settings.load path (.contents bytes) = .error (.io .invalidUtf8) := by
        simp [Settings.load, htext]
      constructor <;> simp [hr, hr', FileAt, TextAt, hstat, htext, Entry.kind]
    | some text =>
      -- past the file and its text, only the document and the checks can fail
      have hlate : ∀ e, Settings.load path (.contents bytes) = .error e →
          e ≠ .notFound path ∧ e ≠ .notAFile path ∧ e ≠ .io .invalidUtf8 := by
        intro e h
        rcases load_contents_error htext h with ⟨m, rfl⟩ | ⟨f, m, rfl⟩ <;> simp
      have htextAt : ∀ t, TextAt host path t ↔ t = text := by
        intro t
        simp [TextAt, FileAt, hstat, htext, eq_comm]
      rw [hr]
      exact {
        notFound := iff_of_false (fun h => (hlate _ h).1 rfl) (fun h => h p _ hstat)
        notAFile := iff_of_false (fun h => (hlate _ h).2.1 rfl) (by simp [hstat, Entry.kind])
        notText := iff_of_false (fun h => (hlate _ h).2.2 rfl) (by simp [FileAt, hstat, htext])
        tomlError := (load_contents_tomlError htext).trans (by simp [htextAt])
        invalidValue := fun _ _ => (load_contents_eq_invalidValue htext).trans (by simp [htextAt])
        ok := fun _ => (load_contents_eq_ok htext).trans (by simp [htextAt]) }
  · -- a link is followed, so the walk never ends at one
    have hr : Settings.load path (Cli.configFound host path) = .error (.notAFile path) := by
      simp [Cli.configFound, hstat, Settings.load]
    constructor <;> simp [hr, FileAt, TextAt, hstat, Entry.kind]

end TestDispatch.Config
