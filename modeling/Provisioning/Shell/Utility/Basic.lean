import Provisioning.FileTree.Basic
import Provisioning.Os.Error
import Provisioning.Text.Utf8

/-!
# Utilities a script calls

A utility is a function from its call (name, arguments, input text, working
directory, file tree, environment) to what it did: a status, the texts it
wrote to its output and error descriptors in order, and the file tree after
it. Error lines follow the GNU tools: the utility's name, a colon, the fault.
-/

namespace Provisioning.Shell

/-- One call of a utility. -/
structure Call where
  name : String
  args : List String
  input : String
  cwd : List String
  files : FileTree
  env : List (String × String)
  deriving Inhabited

/-- What a utility did. -/
structure Done where
  status : Nat
  writes : List (Nat × String)
  files : FileTree
  deriving Inhabited

namespace Call

/-- Nothing written, success. -/
def ok (c : Call) : Done := ⟨0, [], c.files⟩

/-- Output text and success. -/
def say (c : Call) (text : String) : Done := ⟨0, [(1, text)], c.files⟩

/-- An error line `name: message` and a status. -/
def fail (c : Call) (status : Nat) (message : String) : Done :=
  ⟨status, [(2, c.name ++ ": " ++ message ++ "\n")], c.files⟩

/-- The text of a file named on the command line, `-` being the input. -/
def readArg (c : Call) (p : String) : Except OsError String :=
  if p == "-" then .ok c.input
  else
    match c.files.readBytes c.cwd p with
    | .ok data => .ok (Text.decodeLossy data)
    | .error e => .error e

end Call

/-- Lines of a text, each without its line end; a last line without one still
counts, and an empty text has none. -/
def textLines (s : String) : List String :=
  let parts := s.splitOn "\n"
  if s.endsWith "\n" then parts.dropLast else if s.isEmpty then [] else parts

/-- Lines joined back, each ended by a line end. -/
def unlines (ls : List String) : String :=
  String.join (ls.map (· ++ "\n"))

/-- Options in front of the operands: words that start with `-` and are more
than `-`, up to `--`. Returns the option letters and the operands. -/
def splitOptions : List String → List Char × List String
  | [] => ([], [])
  | "--" :: rest => ([], rest)
  | a :: rest =>
    if a.startsWith "-" && a.length > 1 then
      let (opts, ops) := splitOptions rest
      ((a.toList.drop 1) ++ opts, ops)
    else ([], a :: rest)

/-- The text of a path in a message, between typographic-free single quotes. -/
def quotedName (p : String) : String := "'" ++ p ++ "'"

example : textLines "" = [] := by decide +kernel

end Provisioning.Shell
