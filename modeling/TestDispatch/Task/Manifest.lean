import TestDispatch.Task.Error
import TestDispatch.Json.Value
import TestDispatch.Json.Decode
import TestDispatch.Fs.Tree
/-! The task manifest handed to the test runner, one task per archived test, and the archiver's
hash mapping it is built from. -/
namespace TestDispatch.Task

open TestDispatch.Json

structure TaskDescription where
  isolateHash : String
  description : String
  timeout : Nat
deriving DecidableEq, Repr

structure TaskManifest where
  tasks : List TaskDescription
deriving DecidableEq, Repr

namespace TaskManifest

/-- One task per name and hash, in the order given (the mapping is sorted by name). -/
def ofHashes (hashes : List (String × String)) (timeout : Nat) : TaskManifest :=
  ⟨hashes.map fun (name, hash) => ⟨hash, name, timeout⟩⟩

def length (m : TaskManifest) : Nat := m.tasks.length

def isEmpty (m : TaskManifest) : Bool := m.tasks.isEmpty

/-- The JSON form, with the fields of a task in the order hash, description, time limit. -/
def toValue (m : TaskManifest) : Value :=
  .obj [("tasks", .arr (m.tasks.map fun t =>
    .obj [("isolate_hash", .str t.isolateHash), ("description", .str t.description),
      ("timeout", .num t.timeout)]))]

def text (m : TaskManifest) : String := m.toValue.compact

end TaskManifest

namespace TaskDescription

def ofSeq (src : ByteArray) (i : Nat) : Except ReadError (TaskDescription × Nat) := do
  let what := "struct TaskDescription with 3 elements"
  let (isolateHash, j) ← seqField src true 0 what (stringValue src) i
  let (description, k) ← seqField src false 1 what (stringValue src) j
  let (timeout, l) ← seqField src false 2 what (u64Value src) k
  pure (⟨isolateHash, description, timeout⟩, l)

structure Fields where
  isolateHash : Option String := none
  description : Option String := none
  timeout : Option Nat := none

def entry (src : ByteArray) (f : Fields) (key : String) (j : Nat) :
    Except ReadError (Fields × Nat) :=
  if key = "isolate_hash" then do
    let (v, l) ← knownField src key f.isolateHash.isSome (stringValue src) j
    pure ({ f with isolateHash := some v }, l)
  else if key = "description" then do
    let (v, l) ← knownField src key f.description.isSome (stringValue src) j
    pure ({ f with description := some v }, l)
  else if key = "timeout" then do
    let (v, l) ← knownField src key f.timeout.isSome (u64Value src) j
    pure ({ f with timeout := some v }, l)
  else do
    pure (f, ← ignoredField src j)

/-- A task as an object of its fields, in any order. -/
def ofMap (src : ByteArray) (i : Nat) : Except ReadError (TaskDescription × Nat) := do
  let (f, j) ← visitMap src (entry src) (src.size + 1) true {} i
  let isolateHash ← requireField src "isolate_hash" f.isolateHash j
  let description ← requireField src "description" f.description j
  let timeout ← requireField src "timeout" f.timeout j
  pure (⟨isolateHash, description, timeout⟩, j)

def decode (src : ByteArray) (i : Nat) : Step TaskDescription :=
  structValue src "TaskDescription" (ofSeq src) (ofMap src) i

end TaskDescription

inductive ManifestReadError
  | io (e : Fs.IoError)
  | json (e : ReadError)
deriving DecidableEq, Repr

def ManifestReadError.message : ManifestReadError → String
  | .io e => e.message
  | .json e => e.message

namespace TaskManifest

def ofSeq (src : ByteArray) (i : Nat) : Except ReadError (TaskManifest × Nat) := do
  let (tasks, j) ← seqField src true 0 "struct TaskManifest with 1 element"
    (seqValue src (TaskDescription.decode src)) i
  pure (⟨tasks⟩, j)

def entry (src : ByteArray) (tasks : Option (List TaskDescription)) (key : String) (j : Nat) :
    Except ReadError (Option (List TaskDescription) × Nat) :=
  if key = "tasks" then do
    let (v, l) ← knownField src key tasks.isSome (seqValue src (TaskDescription.decode src)) j
    pure (some v, l)
  else do
    pure (tasks, ← ignoredField src j)

/-- A manifest as an object of its field. -/
def ofMap (src : ByteArray) (i : Nat) : Except ReadError (TaskManifest × Nat) := do
  let (tasks, j) ← visitMap src (entry src) (src.size + 1) true none i
  pure (⟨← requireField src "tasks" tasks j⟩, j)

def decode (src : ByteArray) (i : Nat) : Step TaskManifest :=
  structValue src "TaskManifest" (ofSeq src) (ofMap src) i

def ofBytes (bytes : List UInt8) : Except ReadError TaskManifest :=
  let src : ByteArray := ⟨bytes.toArray⟩
  document src (decode src)

def read (t : Fs.Tree) (cwd : List String) (path : Path) : Except ManifestReadError TaskManifest := do
  let bytes ← (t.readBytes cwd path.text).mapError .io
  (ofBytes bytes).mapError .json

def write (m : TaskManifest) (t : Fs.Tree) (cwd : List String) (path : Path) :
    Except PipelineError Fs.Tree :=
  (t.writeFile cwd path.text (Text.Utf8.bytes m.text)).mapError .io

end TaskManifest

/-- The hash mapping from the contents of the file at `path`, or why it cannot be read. -/
def readHashes (path : Path) (contents : Except Fs.IoError (List UInt8)) :
    Except PipelineError (List (String × String)) :=
  match contents with
  | .error e => .error (.invalidHashes path e.message)
  | .ok bytes =>
    match Text.Utf8.text? bytes with
    | none => .error (.invalidHashes path Fs.IoError.invalidUtf8.message)
    | some text =>
      match readStringMap text with
      | .ok m => .ok m
      | .error e => .error (.invalidHashes path e.message)

/-- Turn the hash mapping at `infile` into a manifest written at `outfile`, with `timeout` for
every task: the tree afterwards and the manifest. -/
def hashesToManifest (t : Fs.Tree) (cwd : List String) (infile outfile : Path) (timeout : Nat) :
    Except PipelineError (Fs.Tree × TaskManifest) := do
  let hashes ← readHashes infile (t.readBytes cwd infile.text)
  let manifest := TaskManifest.ofHashes hashes timeout
  pure (← manifest.write t cwd outfile, manifest)

end TestDispatch.Task
