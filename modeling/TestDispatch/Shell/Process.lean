import TestDispatch.Fs.Tree
import TestDispatch.Text.Utf8
import TestDispatch.Shell.Syntax
/-! A running process as the shell sees it: files, working directory, variables, descriptors,
the clock, and its writes to the two output streams in order. -/
namespace TestDispatch.Shell

open TestDispatch.Fs

inductive Stream
  | stdout
  | stderr
deriving DecidableEq, Repr

/-- Where an open file descriptor leads. -/
inductive Sink
  | stream (s : Stream)
  | file (path : List String)
  | null
  /-- The text of the command substitution being run. -/
  | capture
  | input (bytes : List UInt8)
deriving DecidableEq, Repr

structure Chunk where
  stream : Stream
  bytes : List UInt8
  time : Nat
deriving DecidableEq, Repr

inductive Halt
  | timedOut
  | interrupted
deriving DecidableEq, Repr

/-- When a process is stopped: a deadline on its clock in milliseconds, and a file whose
appearance interrupts it the next time it waits. -/
structure Limits where
  deadline : Option Nat := none
  watch : Option (List String) := none
deriving DecidableEq, Repr

/-- A running process. -/
structure Proc where
  tree : Tree
  cwd : List String
  vars : List (String × String)
  exported : List String
  params : List String
  arg0 : String
  fds : List (Nat × Sink)
  status : Nat := 0
  clock : Nat := 0
  chunks : List Chunk := []
  captured : List UInt8 := []
  functions : List (String × Command) := []
  limits : Limits := {}
  line : Nat := 0
  /-- The letters of the shell options that are on, such as `e` to exit on a failure. -/
  options : List Char := []
  /-- Whether the command being run is a condition, whose failure does not end the shell. -/
  tested : Bool := false
  /-- The action for each trapped condition (`EXIT` or a signal name); empty to ignore it. -/
  traps : List (String × String) := []
  /-- The values that the variables made local in the running function had before. -/
  localSaves : Option (List (String × Option String)) := none
  pid : Nat := 4242
  /-- The signal that ended the process, if one did. -/
  signal : Option Nat := none
  /-- The status of the last command substitution of the command being expanded, if one
  ran. -/
  substituted : Option Nat := none

namespace Proc

def var? (p : Proc) (n : String) : Option String := (p.vars.find? (·.1 = n)).map (·.2)

def setVar (p : Proc) (n v : String) : Proc :=
  { p with vars := (n, v) :: p.vars.filter (·.1 ≠ n) }

def unsetVar (p : Proc) (n : String) : Proc :=
  { p with vars := p.vars.filter (·.1 ≠ n), exported := p.exported.filter (· ≠ n) }

def exportVar (p : Proc) (n : String) : Proc :=
  if p.exported.contains n then p else { p with exported := p.exported ++ [n] }

/-- The environment handed to a program: the exported variables, with `extra` on top. -/
def environment (p : Proc) (extra : List (String × String)) : List (String × String) :=
  let base := p.exported.filterMap fun n => (p.var? n).map (n, ·)
  extra ++ base.filter fun (n, _) => !(extra.any (·.1 = n))

def sink? (p : Proc) (fd : Nat) : Option Sink := (p.fds.find? (·.1 = fd)).map (·.2)

def setFd (p : Proc) (fd : Nat) (s : Sink) : Proc :=
  { p with fds := (fd, s) :: p.fds.filter (·.1 ≠ fd) }

def closeFd (p : Proc) (fd : Nat) : Proc := { p with fds := p.fds.filter (·.1 ≠ fd) }

/-- Write bytes to a descriptor; `false` when it is not open for writing. -/
def write (p : Proc) (fd : Nat) (bytes : List UInt8) : Proc × Bool :=
  if bytes.isEmpty then (p, true)
  else
    match p.sink? fd with
    | some (.stream s) =>
      ({ p with chunks := p.chunks ++ [⟨s, bytes, p.clock⟩] }, true)
    | some (.file path) =>
      match p.tree.get? path with
      | some (.file old mode) => ({ p with tree := p.tree.set path (.file (old ++ bytes) mode) }, true)
      | _ => (p, true)
    | some .null => (p, true)
    | some .capture => ({ p with captured := p.captured ++ bytes }, true)
    | some (.input _) | none => (p, false)

def writeText (p : Proc) (fd : Nat) (s : String) : Proc := (p.write fd (Text.Utf8.bytes s)).1

def complain (p : Proc) (msg : String) : Proc := p.writeText 2 s!"{p.arg0}: {p.line}: {msg}\n"

def readAll (p : Proc) (fd : Nat) : Proc × List UInt8 :=
  match p.sink? fd with
  | some (.input bytes) => (p.setFd fd (.input []), bytes)
  | _ => (p, [])

/-- Wait `ms` milliseconds: interrupted at once if the watched file exists, stopped at the
deadline if it comes first. -/
def wait (p : Proc) (ms : Nat) : Proc × Option Halt :=
  let watched := match p.limits.watch with
    | some path => (p.tree.get? path).isSome
    | none => false
  if watched then (p, some .interrupted)
  else match p.limits.deadline with
    | some d => if d ≤ p.clock + ms then ({ p with clock := d }, some .timedOut)
      else ({ p with clock := p.clock + ms }, none)
    | none => ({ p with clock := p.clock + ms }, none)

def hasOption (p : Proc) (c : Char) : Bool := p.options.contains c

/-- The parent after a child ran: the parent's own state, with the file system, clock,
output and captured text the child left. -/
def adopt (parent child : Proc) : Proc :=
  { parent with tree := child.tree, clock := child.clock, chunks := child.chunks,
                captured := child.captured }

end Proc

end TestDispatch.Shell
