import TestDispatch.Config.Error
import TestDispatch.Toml.Document
import TestDispatch.Toml.Write
import TestDispatch.Url.Parse
import TestDispatch.Arithmetic
/-! The configuration: the archive server, the two external tools, the time limits and the test
launcher. Every setting has a default, unknown keys are ignored, and validation reports the
first bad field. -/
namespace TestDispatch.Config

open scoped TestDispatch.Arithmetic

structure Settings where
  isolateServer : String := "http://localhost:4242"
  isolatePath : String := "~/dev/go/bin/isolate"
  distTestClientPath : String := "~/dev/dist_test/client.py"
  taskTimeoutSecs : Nat := 300
  processTimeoutSecs : Nat := 3600
  java : String := "java"
  junitRunner : String := "org.junit.runner.JUnitCore"
deriving DecidableEq, Repr, Inhabited

def fileName : String := ".grind.toml"

/-- Whether a character is white space in the Unicode sense. -/
def isUnicodeSpace (c : Char) : Bool :=
  let n := c.toNat
  (0x09 ≤ n ∧ n ≤ 0x0D) ∨ n = 0x20 ∨ n = 0x85 ∨ n = 0xA0 ∨ n = 0x1680 ∨
    (0x2000 ≤ n ∧ n ≤ 0x200A) ∨ n = 0x2028 ∨ n = 0x2029 ∨ n = 0x202F ∨ n = 0x205F ∨ n = 0x3000

def isBlankText (s : String) : Bool := s.toList.all isUnicodeSpace

namespace Settings

def commands (c : Settings) : List (String × String) :=
  [("isolate_path", c.isolatePath), ("dist_test_client_path", c.distTestClientPath),
    ("java", c.java), ("junit_runner", c.junitRunner)]

/-- Check the server, then the commands, then the time limits; the first failure is reported. -/
def validate (c : Settings) : Except ConfigError Unit := do
  match Url.parseScheme c.isolateServer with
  | .error e => throw (.invalidValue "isolate_server" e.message)
  | .ok s =>
    if s ≠ "http" ∧ s ≠ "https" then
      throw (.invalidValue "isolate_server" s!"unsupported scheme '{s}', expected http or https")
  match c.commands.find? fun (_, v) => isBlankText v with
  | some (field, _) => throw (.invalidValue field "cannot be empty")
  | none => pure ()
  if c.taskTimeoutSecs = 0 then throw (.invalidValue "task_timeout_secs" "must be greater than zero")
  if c.processTimeoutSecs = 0 then
    throw (.invalidValue "process_timeout_secs" "must be greater than zero")

/-- A string setting from a document: absent means the default. -/
def stringSetting (d : Toml.Doc) (key default : String) : Except ConfigError String :=
  match d.top key with
  | none => .ok default
  | some (.value (.string s)) => .ok s
  | some _ => .error (.tomlError s!"invalid type for {key}, expected a string")

/-- A non-negative integer setting from a document: absent means the default. -/
def countSetting (d : Toml.Doc) (key : String) (default : Nat) : Except ConfigError Nat :=
  match d.top key with
  | none => .ok default
  | some (.value (.integer i)) =>
    if i < 0 then .error (.tomlError s!"invalid value for {key}, expected u64") else .ok i.toNat
  | some _ => .error (.tomlError s!"invalid type for {key}, expected u64")

def ofDoc (d : Toml.Doc) : Except ConfigError Settings := do
  let dflt : Settings := {}
  pure {
    isolateServer := ← stringSetting d "isolate_server" dflt.isolateServer
    isolatePath := ← stringSetting d "isolate_path" dflt.isolatePath
    distTestClientPath := ← stringSetting d "dist_test_client_path" dflt.distTestClientPath
    taskTimeoutSecs := ← countSetting d "task_timeout_secs" dflt.taskTimeoutSecs
    processTimeoutSecs := ← countSetting d "process_timeout_secs" dflt.processTimeoutSecs
    java := ← stringSetting d "java" dflt.java
    junitRunner := ← stringSetting d "junit_runner" dflt.junitRunner }

def ofToml (text : String) : Except ConfigError Settings :=
  match Toml.parse text with
  | none => .error (.tomlError "invalid TOML document")
  | some d => ofDoc d

/-- The TOML text of the settings, one line per setting in field order. Integers must fit in
64 signed bits. -/
def toToml (c : Settings) : Except ConfigError String :=
  if c.taskTimeoutSecs > 2 ^ (63 : Nat) - 1 ∨ c.processTimeoutSecs > 2 ^ (63 : Nat) - 1 then
    .error (.tomlSerError "out-of-range value for u64 type")
  else
    let str (k v : String) := k ++ " = " ++ Toml.stringLiteral v ++ "\n"
    let num (k : String) (n : Nat) := k ++ " = " ++ toString n ++ "\n"
    .ok (str "isolate_server" c.isolateServer ++ str "isolate_path" c.isolatePath ++
      str "dist_test_client_path" c.distTestClientPath ++ num "task_timeout_secs" c.taskTimeoutSecs ++
      num "process_timeout_secs" c.processTimeoutSecs ++ str "java" c.java ++
      str "junit_runner" c.junitRunner)

inductive Found
  | nothing
  | notAFile
  | contents (bytes : List UInt8)
  | unreadable (cause : Fs.IoError)
deriving DecidableEq, Repr

/-- Load and validate the settings at `path`: it must exist, be a file, hold UTF-8 text that
is a valid document, and the settings must pass validation. -/
def load (path : Path) (found : Found) : Except ConfigError Settings := do
  match found with
  | .nothing => throw (.notFound path)
  | .notAFile => throw (.notAFile path)
  | .unreadable e => throw (.io e)
  | .contents bytes =>
    match Text.Utf8.text? bytes with
    | none => throw (.io .invalidUtf8)
    | some text =>
      let c ← ofToml text
      c.validate
      pure c

end Settings

end TestDispatch.Config
