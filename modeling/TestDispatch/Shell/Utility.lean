import TestDispatch.Shell.Condition
import TestDispatch.Shell.Format
import TestDispatch.Arithmetic
/-! The programs installed besides the shell, with the behaviour and messages of the common GNU
versions, each under `/usr/bin` and `/bin`. -/
namespace TestDispatch.Shell

open scoped TestDispatch.Arithmetic

open TestDispatch.Fs

/-- An installed program. -/
inductive Utility
  | sh
  | cat
  | basename
  | dirname
  | sleep
  | touch
  | mkdir
  | rm
  | pwd
  | echo
  | printf
  | test
  | bracket
  | trueCmd
  | falseCmd
  | env
deriving DecidableEq, Repr

namespace Utility

def all : List Utility :=
  [sh, cat, basename, dirname, sleep, touch, mkdir, rm, pwd, echo, printf, test, bracket, trueCmd,
    falseCmd, env]

def name : Utility → String
  | sh => "sh"
  | cat => "cat"
  | basename => "basename"
  | dirname => "dirname"
  | sleep => "sleep"
  | touch => "touch"
  | mkdir => "mkdir"
  | rm => "rm"
  | pwd => "pwd"
  | echo => "echo"
  | printf => "printf"
  | test => "test"
  | bracket => "["
  | trueCmd => "true"
  | falseCmd => "false"
  | env => "env"

def directories : List (List String) := [["usr", "bin"], ["bin"]]

/-- The program installed at a physical path, if any. `dash` is the shell under another name. -/
def installedAt (path : List String) : Option Utility :=
  match path.getLast? with
  | some n =>
    if directories.contains path.dropLast then
      if n = "dash" then some sh else all.find? (·.name = n)
    else none
  | none => none

end Utility

def Proc.exitWith (p : Proc) (status : Nat) : Proc := { p with status := status }

def tryHelp (prog : String) : String := s!"Try '{prog} --help' for more information.\n"

/-- The final component of a path, with trailing slashes ignored, and a suffix removed when it
is a proper suffix. -/
def baseName (path suffix : String) : String :=
  let trimmed := (path.toList.reverse.dropWhile (· = '/')).reverse
  if trimmed.isEmpty then (if path.isEmpty then "" else "/")
  else
    let base := String.ofList ((trimmed.reverse.takeWhile (· ≠ '/')).reverse)
    if !suffix.isEmpty ∧ base ≠ suffix ∧ base.endsWith suffix then
      (base.dropEnd suffix.length).toString
    else base

def dirName (path : String) : String :=
  let trimmed := (path.toList.reverse.dropWhile (· = '/')).reverse
  if trimmed.isEmpty then (if path.startsWith "/" then "/" else ".")
  else
    let dir := (trimmed.reverse.dropWhile (· ≠ '/')).reverse
    if dir.isEmpty then "."
    else
      let dir := (dir.reverse.dropWhile (· = '/')).reverse
      if dir.isEmpty then "/" else String.ofList dir

/-- A duration in milliseconds from a `sleep` argument: a decimal number with an optional
fraction and exponent, and an optional unit `s`, `m`, `h` or `d`; rounded up. -/
def sleepMillis (arg : String) : Option Nat :=
  let cs := arg.toList
  let (unit, body) := match cs.getLast? with
    | some 's' => (1, cs.dropLast)
    | some 'm' => (60, cs.dropLast)
    | some 'h' => (3600, cs.dropLast)
    | some 'd' => (86400, cs.dropLast)
    | _ => (1, cs)
  let (whole, rest) := body.span Char.isDigit
  let (frac, rest) := match rest with
    | '.' :: r => r.span Char.isDigit
    | _ => ([], rest)
  let expo : Option Int := match rest with
    | [] => some 0
    | e :: r =>
      if e = 'e' ∨ e = 'E' then
        let (neg, ds) := match r with
          | '-' :: d => (true, d)
          | '+' :: d => (false, d)
          | _ => (false, r)
        if ds.isEmpty ∨ !ds.all Char.isDigit then none
        else
          let v : Int := ds.foldl (fun n c => 10 * n + (c.toNat - 48)) 0
          some (if neg then -v else v)
      else none
  if whole.isEmpty ∧ frac.isEmpty then none
  else expo.bind fun e =>
    let mantissa := (whole ++ frac).foldl (fun n c => 10 * n + (c.toNat - 48)) 0
    -- milliseconds = mantissa * 10^(e + 3 - |frac|) * unit, rounded up
    let shift : Int := e + 3 - frac.length
    if shift ≥ 0 then some (mantissa * 10 ^ shift.toNat * unit)
    else
      let den := 10 ^ (-shift).toNat
      some ((mantissa * unit + den - 1) / den)

def Proc.fail (p : Proc) (prog msg : String) : Proc := p.writeText 2 s!"{prog}: {msg}\n"

def runCat (p : Proc) (args : List String) : Proc :=
  let files := if args.isEmpty then ["-"] else args
  let (p, failed) := files.foldl (fun (p, failed) f =>
    if f = "-" then
      let (p, bytes) := p.readAll 0
      ((p.write 1 bytes).1, failed)
    else
      match p.tree.readBytes p.cwd f with
      | .ok bytes => ((p.write 1 bytes).1, failed)
      | .error e => (p.fail "cat" s!"{f}: {e.description}", true)) (p, false)
  p.exitWith (if failed then 1 else 0)

def runBasename (p : Proc) (args : List String) : Proc :=
  match args with
  | [] => (p.writeText 2 ("basename: missing operand\n" ++ tryHelp "basename")).exitWith 1
  | [n] => (p.writeText 1 (baseName n "" ++ "\n")).exitWith 0
  | [n, s] => (p.writeText 1 (baseName n s ++ "\n")).exitWith 0
  | _ :: _ :: extra :: _ =>
    (p.writeText 2 (s!"basename: extra operand '{extra}'\n" ++ tryHelp "basename")).exitWith 1

def runDirname (p : Proc) (args : List String) : Proc :=
  if args.isEmpty then (p.writeText 2 ("dirname: missing operand\n" ++ tryHelp "dirname")).exitWith 1
  else (args.foldl (fun p a => p.writeText 1 (dirName a ++ "\n")) p).exitWith 0

def runSleep (p : Proc) (args : List String) : Proc × Option Halt :=
  if args.isEmpty then ((p.writeText 2 ("sleep: missing operand\n" ++ tryHelp "sleep")).exitWith 1, none)
  else
    match args.find? fun a => (sleepMillis a).isNone with
    | some bad =>
      ((p.writeText 2 (s!"sleep: invalid time interval '{bad}'\n" ++ tryHelp "sleep")).exitWith 1, none)
    | none =>
      let total := args.foldl (fun n a => n + (sleepMillis a).getD 0) 0
      let (p, halt) := p.wait total
      (p.exitWith 0, halt)

def runTouch (p : Proc) (args : List String) : Proc :=
  if args.isEmpty then (p.writeText 2 ("touch: missing file operand\n" ++ tryHelp "touch")).exitWith 1
  else
    let (p, failed) := args.foldl (fun (p, failed) f =>
      match p.tree.stat p.cwd f with
      | .ok _ => (p, failed)
      | .error _ =>
        match p.tree.writeFile p.cwd f [] with
        | .ok t => ({ p with tree := t }, failed)
        | .error e => (p.fail "touch" s!"cannot touch '{f}': {e.description}", true)) (p, false)
    p.exitWith (if failed then 1 else 0)

def runMkdir (p : Proc) (args : List String) : Proc :=
  let parents := args.contains "-p"
  let dirs := args.filter (· ≠ "-p")
  if dirs.isEmpty then (p.writeText 2 ("mkdir: missing operand\n" ++ tryHelp "mkdir")).exitWith 1
  else
    let (p, failed) := dirs.foldl (fun (p, failed) d =>
      let made := if parents then
          (if p.tree.isDir p.cwd d then .ok p.tree else p.tree.createDirAll p.cwd d)
        else p.tree.createDir p.cwd d
      match made with
      | .ok t => ({ p with tree := t }, failed)
      | .error e => (p.fail "mkdir" s!"cannot create directory '{d}': {e.description}", true)) (p, false)
    p.exitWith (if failed then 1 else 0)

def runRm (p : Proc) (args : List String) : Proc :=
  let flags := (args.filter (·.startsWith "-")).foldl (fun acc a => acc ++ (a.drop 1).toString.toList) []
  let force := flags.contains 'f'
  let recursive := flags.contains 'r' ∨ flags.contains 'R'
  let files := args.filter fun a => !a.startsWith "-"
  if files.isEmpty ∧ !force then (p.writeText 2 ("rm: missing operand\n" ++ tryHelp "rm")).exitWith 1
  else
    let (p, failed) := files.foldl (fun (p, failed) f =>
      match p.tree.lstat p.cwd f with
      | .ok (_, .dir) =>
        if recursive then
          match p.tree.removeDirAll p.cwd f with
          | .ok t => ({ p with tree := t }, failed)
          | .error e => (p.fail "rm" s!"cannot remove '{f}': {e.description}", true)
        else (p.fail "rm" s!"cannot remove '{f}': Is a directory", true)
      | .ok _ =>
        match p.tree.removeFile p.cwd f with
        | .ok t => ({ p with tree := t }, failed)
        | .error e => (p.fail "rm" s!"cannot remove '{f}': {e.description}", true)
      | .error e =>
        if force then (p, failed) else (p.fail "rm" s!"cannot remove '{f}': {e.description}", true))
      (p, false)
    p.exitWith (if failed then 1 else 0)

/-- The GNU `echo` program: options `-n`, `-e` and `-E` (also combined) come first; escapes
are expanded only with `-e`. -/
def runEcho (p : Proc) (args : List String) : Proc :=
  let isOption := fun (a : String) =>
    a.length ≥ 2 ∧ a.startsWith "-" ∧ (a.drop 1).toString.all fun c => c = 'n' ∨ c = 'e' ∨ c = 'E'
  let opts := args.takeWhile isOption
  let rest := args.dropWhile isOption
  let flags := opts.foldl (fun acc a => acc ++ (a.drop 1).toString.toList) []
  let newline := !flags.contains 'n'
  let escapes := (flags.reverse.find? fun c => c = 'e' ∨ c = 'E') = some 'e'
  let body := Text.Utf8.bytes (" ".intercalate rest)
  let (body, stopped) := if escapes then expandEscapes body else (body, false)
  let out := if newline ∧ !stopped then body ++ [10] else body
  ((p.write 1 out).1).exitWith 0

def runPrintf (p : Proc) (pre : String) (args : List String) : Proc :=
  match args with
  | [] => (p.writeText 2 s!"{pre}usage: printf format [arg ...]\n").exitWith 2
  | fmt :: rest =>
    let r := printfBytes fmt rest
    let p := (p.write 1 r.out).1
    let p := r.warnings.foldl (fun p w => p.writeText 2 s!"{pre}{w}\n") p
    p.exitWith r.status

def runTest (p : Proc) (pre : String) (bracket : Bool) (args : List String) : Proc :=
  let args? := if bracket then
      (if args.getLast? = some "]" then some args.dropLast else none)
    else some args
  match args? with
  | none => (p.writeText 2 s!"{pre}missing ]\n").exitWith 2
  | some args =>
    match evalTest p args with
    | .ok true => p.exitWith 0
    | .ok false => p.exitWith 1
    | .error msg => (p.writeText 2 s!"{pre}{msg}\n").exitWith 2

/-- Run an installed program other than the shell and `env`. -/
def runUtility (u : Utility) (p : Proc) (args : List String) : Proc × Option Halt :=
  match u with
  | .cat => (runCat p args, none)
  | .basename => (runBasename p args, none)
  | .dirname => (runDirname p args, none)
  | .sleep => runSleep p args
  | .touch => (runTouch p args, none)
  | .mkdir => (runMkdir p args, none)
  | .rm => (runRm p args, none)
  | .pwd => ((p.writeText 1 (showPath p.cwd ++ "\n")).exitWith 0, none)
  | .echo => (runEcho p args, none)
  | .printf => (runPrintf p "printf: " args, none)
  | .test => (runTest p "test: " false args, none)
  | .bracket => (runTest p "[: " true args, none)
  | .trueCmd => (p.exitWith 0, none)
  | .falseCmd => (p.exitWith 1, none)
  | .sh | .env => (p.exitWith 0, none)

end TestDispatch.Shell
