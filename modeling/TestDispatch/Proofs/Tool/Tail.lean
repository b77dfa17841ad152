import TestDispatch.Tool.Invocation
import Mathlib.Data.List.Infix
import Mathlib.Logic.Basic
/-! The error lines of a failed tool run: every line read is forwarded once, and the buffer keeps
the last `stderrTailLines` of them (`failed_run_keeps_stderr_tail`). -/
namespace TestDispatch.Tool

open TestDispatch.Shell

/-- The last `stderrTailLines` lines of `ls`, or all of them when there are fewer. -/
def lastLines (ls : List String) : List String := ls.drop (ls.length - stderrTailLines)

section Buffer

theorem lastLines_suffix (ls : List String) : lastLines ls <:+ ls := List.drop_suffix _ _

theorem length_lastLines (ls : List String) :
    (lastLines ls).length = min ls.length stderrTailLines := by
  simp only [lastLines, List.length_drop]
  omega

/-- The buffer step: the oldest line goes exactly when the buffer already holds as many lines as
it keeps. -/
theorem pushTail_lastLines (ls : List String) (l : String) :
    pushTail (lastLines ls) l = lastLines (ls ++ [l]) := by
  unfold pushTail lastLines
  have hkeep : stderrTailLines = 20 := rfl
  by_cases hfull : stderrTailLines ≤ ls.length
  · have hlen : (ls.drop (ls.length - stderrTailLines)).length = stderrTailLines := by
      simp only [List.length_drop]
      omega
    have hdrop : ls.length + 1 - stderrTailLines ≤ ls.length := by omega
    rw [if_pos hlen, List.drop_drop, List.length_append, List.length_singleton,
      List.drop_append_of_le_length hdrop]
    congr 2
    omega
  · have hlen : (ls.drop (ls.length - stderrTailLines)).length ≠ stderrTailLines := by
      simp only [List.length_drop]
      omega
    rw [if_neg hlen, List.length_append, List.length_singleton,
      show ls.length - stderrTailLines = 0 by omega,
      show ls.length + 1 - stderrTailLines = 0 by omega, List.drop_zero, List.drop_zero]

theorem forwardLines_go (tool : String) (isStderr : Bool) (e : StreamEnd) (rest : List LineRead) :
    ∀ (ls : List String) (forwarded : List ToolLine) (read : List String),
      forwardLines.go tool isStderr (ls.map .line ++ .finished e :: rest) forwarded
          (lastLines read) =
        (forwarded ++ ls.map (⟨tool, ·, isStderr⟩), lastLines (read ++ ls))
  | [], forwarded, read => by simp [forwardLines.go]
  | l :: ls, forwarded, read => by
    rw [List.map_cons, List.cons_append, forwardLines.go, pushTail_lastLines,
      forwardLines_go tool isStderr e rest ls]
    simp

/-- Forwarding a stream whose reads give the lines `ls` and then no line forwards each of them
once, in order, and keeps the last `stderrTailLines` of them; nothing read after the reads stop
is forwarded or kept. -/
theorem forwardLines_eq (tool : String) (isStderr : Bool) (ls : List String) (e : StreamEnd)
    (rest : List LineRead) :
    forwardLines tool isStderr (ls.map .line ++ .finished e :: rest) =
      (ls.map (⟨tool, ·, isStderr⟩), lastLines ls) := by
  have hrun := forwardLines_go tool isStderr e rest ls [] []
  simp only [lastLines, List.length_nil, Nat.zero_sub, List.drop_zero, List.nil_append] at hrun
  rw [forwardLines, hrun, lastLines]

example : (forwardLines "t" true
    ((List.range 21).map (fun n => LineRead.line (toString n)) ++ [.finished .fault, .line "x"])).2 =
      (List.range' 1 20).map toString := by
  decide +kernel

end Buffer

section Stream

theorem finish_eq (r : LineReader) :
    ∃ (ls : List String) (e : StreamEnd), r.finish = ls.map .line ++ [.finished e] := by
  unfold LineReader.finish
  split
  · exact ⟨[], .fault, rfl⟩
  split
  · exact ⟨[], .eof, rfl⟩
  split
  · rename_i s _
    exact ⟨[s], .eof, rfl⟩
  · exact ⟨[], .fault, rfl⟩

@[simp] theorem filterMap_text?_lines (ls : List String) (e : StreamEnd) :
    (ls.map LineRead.line ++ [LineRead.finished e]).filterMap LineRead.text? = ls := by
  simp [List.filterMap_append, List.filterMap_map, Function.comp_def, LineRead.text?]

/-- Reading both streams of an output reads the error stream as if it alone had been written:
the reader of the error stream and the error lines reported follow the writes to it. -/
theorem foldl_outputStep (tool : String) :
    ∀ (chunks : List Chunk) (out err : LineReader) (lines : List ToolLine) (read : List String),
      lines.filter (·.isStderr) = read.map (⟨tool, ·, true⟩) →
      (chunks.foldl (outputStep tool) (out, err, lines)).2.1 =
          ((stderrWrites chunks).foldl readStep (err, read)).1 ∧
        (chunks.foldl (outputStep tool) (out, err, lines)).2.2.filter (·.isStderr) =
          ((stderrWrites chunks).foldl readStep (err, read)).2.map (⟨tool, ·, true⟩)
  | [], _, _, _, _, h => ⟨rfl, h⟩
  | c :: chunks, out, err, lines, read, h => by
    rcases hs : c.stream with _ | _
    · -- a write to the output stream reports no error line
      have hw : stderrWrites (c :: chunks) = stderrWrites chunks := by simp [stderrWrites, hs]
      rw [List.foldl_cons, hw]
      simp only [outputStep, hs]
      apply foldl_outputStep tool chunks
      simp [List.filter_append, h]
    · have hw : stderrWrites (c :: chunks) = c.bytes :: stderrWrites chunks := by
        simp [stderrWrites, hs]
      rw [List.foldl_cons, hw, List.foldl_cons]
      simp only [outputStep, hs, readStep]
      apply foldl_outputStep tool chunks
      simp [List.filter_append, h]

theorem outputLines_stderr (tool : String) (chunks : List Chunk) :
    ∃ (ls : List String) (e : StreamEnd),
      streamReads (stderrWrites chunks) = ls.map .line ++ [.finished e] ∧
      (outputLines tool chunks true).filter (·.isStderr) = ls.map (⟨tool, ·, true⟩) := by
  obtain ⟨hrd, hlines⟩ := foldl_outputStep tool chunks {} {} [] [] rfl
  rcases hfold : chunks.foldl (outputStep tool) ({}, {}, []) with ⟨out, err, lines⟩
  rcases hread : (stderrWrites chunks).foldl readStep ({}, []) with ⟨r, texts⟩
  rw [hfold, hread] at hrd hlines
  dsimp only at hrd hlines
  subst hrd
  obtain ⟨fl, e, hfin⟩ := finish_eq err
  refine ⟨texts ++ fl, e, ?_, ?_⟩
  · simp only [streamReads, hread, hfin, List.map_append, List.append_assoc]
  · simp only [outputLines, hfold, if_true, hfin, filterMap_text?_lines]
    simp [List.filter_append, List.filter_map, Function.comp_def, hlines]

end Stream

section Run

variable {inv : ToolInvocation} {host : Host} {watch : Option (List String)} {label : String}
  {code : Option Int} {stderr : String}

/-- A run fails with an exit status only once its tool completed: it reports the lines of its
whole output and, as its error text, the buffer kept while forwarding its error stream. -/
theorem run_eq_failed
    (h : (inv.run host watch).ending = .finished (.error (.failed label code stderr))) :
    ∃ chunks, (inv.run host watch).lines = outputLines inv.label chunks true ∧
      label = inv.label ∧
      stderr =
        "\n".intercalate (forwardLines inv.label true (streamReads (stderrWrites chunks))).2 := by
  generalize hr : inv.run host watch = r at h ⊢
  unfold ToolInvocation.run at hr
  dsimp only at hr
  split at hr
  · subst hr
    cases h
  · -- the tool started: an interruption and a timeout are no failure with a status
    split at hr
    · subst hr
      cases h
    · subst hr
      cases h
    · split at hr
      · subst hr
        cases h
      · subst hr
        dsimp only at h ⊢
        injection h with h
        rcases ite_eq_iff.mp h with ⟨-, h⟩ | ⟨-, h⟩
        · cases h
        · cases h
          exact ⟨_, rfl, rfl, rfl⟩

theorem run_failed_stderr
    (h : (inv.run host watch).ending = .finished (.error (.failed label code stderr))) :
    label = inv.label ∧
      ∃ (chunks : List Chunk) (ls : List String) (e : StreamEnd),
        (inv.run host watch).lines = outputLines inv.label chunks true ∧
        streamReads (stderrWrites chunks) = ls.map .line ++ [.finished e] ∧
        (inv.run host watch).lines.filter (·.isStderr) = ls.map (⟨inv.label, ·, true⟩) ∧
        stderr = "\n".intercalate (lastLines ls) := by
  obtain ⟨chunks, hlines, hlabel, hstderr⟩ := run_eq_failed h
  obtain ⟨ls, e, hreads, hstderrLines⟩ := outputLines_stderr inv.label chunks
  refine ⟨hlabel, chunks, ls, e, hlines, hreads, by rw [hlines, hstderrLines], ?_⟩
  rw [hstderr, hreads, forwardLines_eq]

end Run

/-- The error text of a failed run. Forwarding a stream whose reads give lines and then stop
reports each line once, in order, and keeps the last `stderrTailLines` of them, in order; what
follows the reads that stopped is neither reported nor kept. A run that fails with an exit
status has so reported the lines of its error stream, and its error text is their kept tail
joined by line feeds. -/
theorem failed_run_keeps_stderr_tail :
    (∀ (tool : String) (isStderr : Bool) (ls : List String) (e : StreamEnd)
        (rest : List LineRead),
      (forwardLines tool isStderr (ls.map .line ++ .finished e :: rest)).1 =
          ls.map (⟨tool, ·, isStderr⟩) ∧
        (forwardLines tool isStderr (ls.map .line ++ .finished e :: rest)).2 <:+ ls ∧
        (forwardLines tool isStderr (ls.map .line ++ .finished e :: rest)).2.length =
          min ls.length stderrTailLines) ∧
    ∀ (inv : ToolInvocation) (host : Host) (watch : Option (List String)) (label : String)
      (code : Option Int) (stderr : String),
      (inv.run host watch).ending = .finished (.error (.failed label code stderr)) →
      label = inv.label ∧
        ∃ (chunks : List Chunk) (ls : List String) (e : StreamEnd),
          (inv.run host watch).lines = outputLines inv.label chunks true ∧
          streamReads (stderrWrites chunks) = ls.map .line ++ [.finished e] ∧
          (inv.run host watch).lines.filter (·.isStderr) = ls.map (⟨inv.label, ·, true⟩) ∧
          stderr = "\n".intercalate (lastLines ls) := by
  refine ⟨fun tool isStderr ls e rest => ?_, fun _ _ _ _ _ _ h => run_failed_stderr h⟩
  rw [forwardLines_eq]
  exact ⟨rfl, lastLines_suffix ls, length_lastLines ls⟩

/-- A program named by a path is started from that path; the search path is not read. -/
theorem findProgram_of_slash (t : Fs.Tree) (cwd : List String) (pathVar : String) {program : String}
    (h : '/' ∈ program.toList) :
    findProgram t cwd pathVar program = (locate t cwd program).map (·, program) := by
  unfold findProgram
  simp [h]

/-- The installed cat asked for a file that does not exist. -/
def catMissingFile : ToolInvocation := { program := "/bin/cat", args := ["/missing"], timeoutMs := 5000 }

def bareHost : Host := ⟨⟨[]⟩, [], [], none⟩

theorem cat_missing_file_stderr_tail :
    (catMissingFile.run bareHost none).ending =
        .finished (.error (.failed "cat" (some 1) "cat: /missing: No such file or directory")) ∧
      ∃ ls : List String,
        (catMissingFile.run bareHost none).lines.filter (·.isStderr) = ls.map (⟨"cat", ·, true⟩) ∧
        "cat: /missing: No such file or directory" = "\n".intercalate (lastLines ls) := by
  -- the lookup is rewritten away, since the kernel does not reduce a search for a character
  have hend : (catMissingFile.run bareHost none).ending =
      .finished (.error (.failed "cat" (some 1) "cat: /missing: No such file or directory")) := by
    have hb : (match (catMissingFile.run bareHost none).ending with
        | .finished (.error (.failed l c s)) =>
          decide (l = "cat" ∧ c = some 1 ∧ s = "cat: /missing: No such file or directory")
        | _ => false) = true := by
      rw [ToolInvocation.run, @findProgram_of_slash _ _ _ catMissingFile.program (by decide)]
      decide +kernel
    split at hb
    · simp only [decide_eq_true_eq] at hb
      obtain ⟨rfl, rfl, rfl⟩ := hb
      assumption
    · cases hb
  obtain ⟨hlabel, -, ls, -, -, -, hlines, htail⟩ :=
    failed_run_keeps_stderr_tail.2 catMissingFile bareHost none _ _ _ hend
  refine ⟨hend, ls, ?_, htail⟩
  rw [hlines, ← hlabel]

end TestDispatch.Tool
