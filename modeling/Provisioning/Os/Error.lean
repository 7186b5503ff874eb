/-!
Errors of the operating system.

File operations and process starts fail with one of a few causes, each
shown the way the system describes it, with its error number in
parentheses. A file whose bytes are not UTF-8 text fails to read as text
with a message of its own and no number.
-/

namespace Provisioning

/-- Why a file operation or a process start failed. -/
inductive OsError where
  | notFound
  | permissionDenied
  | alreadyExists
  | notADirectory
  | isADirectory
  | invalidArgument
  | directoryNotEmpty
  | tooManyLinks
  | nameTooLong
  | execFormat
  | notText
  deriving DecidableEq, Repr

namespace OsError

/-- The system's error number, when there is one. -/
def code : OsError → Option Nat
  | .notFound => some 2
  | .permissionDenied => some 13
  | .alreadyExists => some 17
  | .notADirectory => some 20
  | .isADirectory => some 21
  | .invalidArgument => some 22
  | .directoryNotEmpty => some 39
  | .tooManyLinks => some 40
  | .nameTooLong => some 36
  | .execFormat => some 8
  | .notText => none

/-- The system's description of the cause. -/
def description : OsError → String
  | .notFound => "No such file or directory"
  | .permissionDenied => "Permission denied"
  | .alreadyExists => "File exists"
  | .notADirectory => "Not a directory"
  | .isADirectory => "Is a directory"
  | .invalidArgument => "Invalid argument"
  | .directoryNotEmpty => "Directory not empty"
  | .tooManyLinks => "Too many levels of symbolic links"
  | .nameTooLong => "File name too long"
  | .execFormat => "Exec format error"
  | .notText => "stream did not contain valid UTF-8"

/-- The error as shown to users: the description, then the number in parentheses. -/
def message (e : OsError) : String :=
  match e.code with
  | some n => e.description ++ " (os error " ++ toString n ++ ")"
  | none => e.description

example : message .notFound = "No such file or directory (os error 2)" := by
  decide

end OsError

end Provisioning
