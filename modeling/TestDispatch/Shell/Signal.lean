/-! Signals by number and name, and what a process does with one it has not trapped. -/
namespace TestDispatch.Shell

def signalNames : List String :=
  ["HUP", "INT", "QUIT", "ILL", "TRAP", "ABRT", "BUS", "FPE", "KILL", "USR1", "SEGV", "USR2",
   "PIPE", "ALRM", "TERM", "STKFLT", "CHLD", "CONT", "STOP", "TSTP", "TTIN", "TTOU", "URG",
   "XCPU", "XFSZ", "VTALRM", "PROF", "WINCH", "IO", "PWR", "SYS"]

inductive SignalAction
  | terminate
  | ignore
  | stop
deriving DecidableEq, Repr

namespace Signal

def kill : Nat := 9

def term : Nat := 15

def stop : Nat := 19

def name? (n : Nat) : Option String := signalNames[n - 1]?

/-- The number of a signal given by number (below 65) or by name, in any case. With `exit`,
`EXIT` names the condition of the shell's exit, number 0. -/
def number? (spec : String) (exit : Bool) : Option Nat :=
  if !spec.isEmpty ∧ spec.all Char.isDigit then
    let n := spec.toNat!
    if n < 65 then some n else none
  else
    let upper := spec.toUpper
    if exit ∧ upper = "EXIT" then some 0
    else (signalNames.idxOf? upper).map (· + 1)

/-- The action of a signal that is not trapped. -/
def action (n : Nat) : SignalAction :=
  if n = 17 ∨ n = 18 ∨ n = 23 ∨ n = 28 then .ignore
  else if n = 19 ∨ n = 20 ∨ n = 21 ∨ n = 22 then .stop
  else .terminate

/-- Whether a trap may catch or ignore a signal. -/
def catchable (n : Nat) : Bool := n ≠ kill ∧ n ≠ stop

def trapKey (n : Nat) : String := if n = 0 then "EXIT" else (name? n).getD (toString n)

end Signal

end TestDispatch.Shell
