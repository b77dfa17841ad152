import TestDispatch.Shell.Process
/-! The lines a caller sees of a tool's output: each stream read by lines until a line is not
UTF-8, and the last `stderrTailLines` error lines kept for a failure. -/
namespace TestDispatch.Tool

open TestDispatch.Shell

structure ToolLine where
  tool : String
  line : String
  isStderr : Bool
deriving DecidableEq, Repr

structure LineReader where
  pending : List UInt8 := []
  stopped : Bool := false
deriving DecidableEq, Repr

/-- How reading a stream by lines ended: at the end of the stream, or at a line that is not
UTF-8. -/
inductive StreamEnd
  | eof
  | fault
deriving DecidableEq, Repr

inductive LineRead
  | line (text : String)
  | finished (ending : StreamEnd)
deriving DecidableEq, Repr

def LineRead.text? : LineRead → Option String
  | .line s => some s
  | .finished _ => none

def splitLines : List UInt8 → List (List UInt8) × List UInt8
  | [] => ([], [])
  | b :: r =>
    let (lines, rest) := splitLines r
    if b = 10 then ([] :: lines, rest)
    else match lines with
      | l :: ls => ((b :: l) :: ls, rest)
      | [] => ([], b :: rest)

namespace LineReader

def decodeLines : List (List UInt8) → List String × Bool
  | [] => ([], false)
  | l :: ls =>
    let l := if l.getLast? = some 13 then l.dropLast else l
    match Text.Utf8.text? l with
    | some s => let (more, stop) := decodeLines ls; (s :: more, stop)
    | none => ([], true)

def feed (r : LineReader) (bytes : List UInt8) : LineReader × List String :=
  if r.stopped then (r, [])
  else
    let (lines, rest) := splitLines (r.pending ++ bytes)
    let (texts, stop) := decodeLines lines
    if stop then ({ pending := [], stopped := true }, texts)
    else ({ pending := rest, stopped := false }, texts)

/-- The last reads when the stream ends: the line left without a final line feed, if any, then
the end; a fault when reading had stopped or that line is not UTF-8. -/
def finish (r : LineReader) : List LineRead :=
  if r.stopped then [.finished .fault]
  else if r.pending.isEmpty then [.finished .eof]
  else match Text.Utf8.text? r.pending with
    | some s => [.line s, .finished .eof]
    | none => [.finished .fault]

end LineReader

/-- Take in one chunk of a tool's output: the reader of its stream takes the bytes, and the lines
they complete are reported after those before. -/
def outputStep (tool : String) (acc : LineReader × LineReader × List ToolLine) (c : Chunk) :
    LineReader × LineReader × List ToolLine :=
  let (out, err, lines) := acc
  match c.stream with
  | .stdout =>
    let (out, ls) := out.feed c.bytes
    (out, err, lines ++ ls.map (⟨tool, ·, false⟩))
  | .stderr =>
    let (err, ls) := err.feed c.bytes
    (out, err, lines ++ ls.map (⟨tool, ·, true⟩))

/-- The lines of a tool's output from what it wrote, in order. When `complete`, the streams
ended normally and their last unfinished lines count. -/
def outputLines (tool : String) (chunks : List Chunk) (complete : Bool) : List ToolLine :=
  let (out, err, lines) := chunks.foldl (outputStep tool) ({}, {}, [])
  if complete then
    lines ++ (out.finish.filterMap LineRead.text?).map (⟨tool, ·, false⟩) ++
      (err.finish.filterMap LineRead.text?).map (⟨tool, ·, true⟩)
  else lines

def readStep (acc : LineReader × List String) (bytes : List UInt8) : LineReader × List String :=
  let (r, ls) := acc.1.feed bytes
  (r, acc.2 ++ ls)

/-- The reads of a stream that was written `writes`, one after another, and then closed: its
lines in order, then how the reading ended. -/
def streamReads (writes : List (List UInt8)) : List LineRead :=
  let (r, texts) := writes.foldl readStep ({}, [])
  texts.map .line ++ r.finish

def stderrWrites (chunks : List Chunk) : List (List UInt8) :=
  (chunks.filter (·.stream = .stderr)).map (·.bytes)

def stderrTailLines : Nat := 20

def pushTail (tail : List String) (line : String) : List String :=
  (if tail.length = stderrTailLines then tail.drop 1 else tail) ++ [line]

/-- Forward the lines of a stream as they are read, as lines of `tool`, until a read gives no
line; keep the last `stderrTailLines` of them. Returns the lines forwarded and those kept. -/
def forwardLines (tool : String) (isStderr : Bool) (reads : List LineRead) :
    List ToolLine × List String :=
  go reads [] []
where
  go : List LineRead → List ToolLine → List String → List ToolLine × List String
    | .line s :: rest, forwarded, tail => go rest (forwarded ++ [⟨tool, s, isStderr⟩]) (pushTail tail s)
    | _, forwarded, tail => (forwarded, tail)

end TestDispatch.Tool
