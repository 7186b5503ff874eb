import Provisioning.Shell.Syntax
import Provisioning.FileTree.Basic

/-!
# The state of a running shell

A shell runs on a file tree, in a working directory, with variables, the
arguments of the script, its functions, the status of the last command, the
text still to be read from its input, and two output descriptors. Each output
descriptor leads to a sink: the script's collected output, its collected error
text, a file, or nowhere. What a command writes goes at once to its sink, so
output to a file is in the tree as soon as it is written.
-/

namespace Provisioning.Shell

/-- Where an output descriptor leads. -/
inductive Sink where
  /-- The script's collected output. -/
  | stdout
  /-- The script's collected error text. -/
  | stderr
  /-- A file, written at its end. -/
  | file (loc : List String)
  /-- Nowhere, as with `/dev/null`. -/
  | discard
  deriving DecidableEq, Repr, Inhabited

/-- A running shell. -/
structure State where
  files : FileTree
  cwd : List String
  vars : List (String × String)
  exported : List String
  args : List String
  script : String
  status : Nat
  funcs : List (String × Command)
  out : String
  err : String
  input : String
  fd1 : Sink
  fd2 : Sink
  dialect : Dialect
  pid : Nat
  /-- The status of the last command substitution of the command being expanded. -/
  substStatus : Option Nat
  deriving Inhabited

namespace State

/-- The value of a variable, if it is set. -/
def var? (st : State) (name : String) : Option String :=
  (st.vars.find? (·.1 == name)).map (·.2)

/-- Set a variable. -/
def setVar (st : State) (name value : String) : State :=
  { st with vars := (name, value) :: st.vars.filter (·.1 != name) }

/-- Unset a variable. -/
def unsetVar (st : State) (name : String) : State :=
  { st with vars := st.vars.filter (·.1 != name), exported := st.exported.filter (· != name) }

/-- Mark a variable for the environment of the commands the shell starts. -/
def markExported (st : State) (name : String) : State :=
  if st.exported.contains name then st else { st with exported := st.exported ++ [name] }

/-- The environment the shell hands to a command it starts. -/
def environment (st : State) : List (String × String) :=
  st.exported.filterMap fun n => (st.var? n).map fun v => (n, v)

/-- The sink of an output descriptor; descriptors other than 1 and 2 write nowhere. -/
def sinkOf (st : State) : Nat → Sink
  | 1 => st.fd1
  | 2 => st.fd2
  | _ => .discard

/-- Write text to a sink. -/
def toSink (st : State) (s : Sink) (text : String) : State :=
  if text.isEmpty then st else
  match s with
  | .stdout => { st with out := st.out ++ text }
  | .stderr => { st with err := st.err ++ text }
  | .discard => st
  | .file loc =>
    match st.files.node? loc with
    | some (.file old mode) => { st with files := st.files.put loc (.file (old ++ bytesOf text) mode) }
    | _ => st

/-- Write text to an output descriptor. -/
def emit (st : State) (fd : Nat) (text : String) : State :=
  st.toSink (st.sinkOf fd) text

/-- Write a sequence of texts, each to its descriptor, in order. -/
def emitAll (st : State) (writes : List (Nat × String)) : State :=
  writes.foldl (fun st (fd, text) => st.emit fd text) st

/-- The working directory as a path. -/
def cwdText (st : State) : String := locationText st.cwd

end State

end Provisioning.Shell
