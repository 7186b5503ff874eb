import Provisioning.Text.Blank
/-!
Commands and what a finished process leaves behind.

A command is a program with its arguments, run in a working directory with
extra environment variables. A command may be placed behind a prefix such
as `docker exec civicrm`: the prefix's first word becomes the program, and
the rest of the prefix, the original program and its arguments become the
arguments.

A finished process has an exit code (none when a signal ended it) and its
captured standard output and error. When it failed, the failure is
described by its status ("exit code 1", or "terminated by signal"),
followed by the trimmed standard error, or by the trimmed standard output
when the error stream holds only blanks.
-/

namespace Provisioning

/-- A program to run, with its arguments, working directory and extra environment. -/
structure Command where
  program : String
  args : List String
  cwd : Option String := none
  env : List (String × String) := []
  deriving Repr, Inhabited

namespace Command

/-- The command that runs `program` with `args`, behind `prefix` when it is not empty. -/
def withPrefix (pre : List String) (program : String) (args : List String) : Command :=
  match pre with
  | [] => { program, args }
  | first :: rest => { program := first, args := rest ++ program :: args }

theorem withPrefix_nil (program : String) (args : List String) :
    (withPrefix [] program args).program = program ∧ (withPrefix [] program args).args = args :=
  ⟨rfl, rfl⟩

end Command

/-- What a finished process leaves behind. -/
structure Captured where
  /-- The exit code; `none` when a signal ended the process. -/
  code : Option Int
  stdout : String
  stderr : String
  deriving Repr, Inhabited

namespace Captured

/-- Whether the process exited with code 0. -/
def success (o : Captured) : Bool := o.code == some 0

/-- How the process ended. -/
def statusText (o : Captured) : String :=
  match o.code with
  | some c => "exit code " ++ (if c < 0 then "-" ++ toString c.natAbs else toString c.natAbs)
  | none => "terminated by signal"

/-- The status, followed by what the process said: its trimmed error output, or its trimmed
standard output when the error output is blank. -/
def failureText (o : Captured) : String :=
  let err := Text.trim o.stderr
  let detail := if err.isEmpty then Text.trim o.stdout else err
  if detail.isEmpty then o.statusText else o.statusText ++ ": " ++ detail

end Captured

end Provisioning
