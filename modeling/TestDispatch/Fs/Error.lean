/-! Failures of file system and process calls, with the operating system's text and number,
except a NUL byte in a path and bytes that are not UTF-8, which have no number. -/
namespace TestDispatch.Fs

/-- Why a file system or process call failed. -/
inductive IoError
  | notFound
  | permissionDenied
  | alreadyExists
  | notADirectory
  | isADirectory
  | invalidArgument
  | nameTooLong
  | notEmpty
  | tooManyLinks
  | execFormat
  | nulInPath
  | invalidUtf8
deriving DecidableEq, Repr, Inhabited

namespace IoError

def code? : IoError → Option Nat
  | notFound => some 2
  | permissionDenied => some 13
  | alreadyExists => some 17
  | notADirectory => some 20
  | isADirectory => some 21
  | invalidArgument => some 22
  | nameTooLong => some 36
  | notEmpty => some 39
  | tooManyLinks => some 40
  | execFormat => some 8
  | nulInPath => none
  | invalidUtf8 => none

def description : IoError → String
  | notFound => "No such file or directory"
  | permissionDenied => "Permission denied"
  | alreadyExists => "File exists"
  | notADirectory => "Not a directory"
  | isADirectory => "Is a directory"
  | invalidArgument => "Invalid argument"
  | nameTooLong => "File name too long"
  | notEmpty => "Directory not empty"
  | tooManyLinks => "Too many levels of symbolic links"
  | execFormat => "Exec format error"
  | nulInPath => "file name contained an unexpected NUL byte"
  | invalidUtf8 => "stream did not contain valid UTF-8"

/-- The text of a failure: its description, then `(os error N)` when it has a number. -/
def message (e : IoError) : String :=
  match e.code? with
  | some n => s!"{e.description} (os error {n})"
  | none => e.description

end IoError

end TestDispatch.Fs
