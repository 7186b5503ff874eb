import Provisioning.Error
/-!
How extensions are made visible under the extensions root.

An extension's source tree is linked into the extensions root by a
symbolic link, by a copy, or by `auto`: a link, falling back to a copy when
the link cannot be made. A link or copy that exists already may be found
in place; the method and the outcome of linking have names of their own for
reports.
-/

namespace Provisioning

/-- How the linker makes an extension visible. -/
inductive LinkStrategy where
  | auto
  | symlink
  | copy
  deriving DecidableEq, Repr, Inhabited

namespace LinkStrategy

/-- The lowercase name of a strategy. -/
def name : LinkStrategy → String
  | .auto => "auto"
  | .symlink => "symlink"
  | .copy => "copy"

/-- The names strategies are written with. -/
def names : List String := ["auto", "symlink", "copy"]

/-- Read a strategy from its name. -/
def ofName? : String → Option LinkStrategy
  | "auto" => some .auto
  | "symlink" => some .symlink
  | "copy" => some .copy
  | _ => none

/-- Read a strategy from its name, refusing any other word. -/
def parse (value : String) : Except Error LinkStrategy :=
  match ofName? value with
  | some s => .ok s
  | none => .error (.config ("unknown link strategy '" ++ value ++ "' (expected auto, symlink or copy)"))

theorem ofName_name (s : LinkStrategy) : ofName? s.name = some s := by
  cases s <;> rfl

end LinkStrategy

/-- How an extension ended up visible. -/
inductive LinkMethod where
  | symlink
  | copy
  /-- The extension's directory is already the destination. -/
  | inPlace
  deriving DecidableEq, Repr

namespace LinkMethod

/-- Every method, in order. -/
def all : List LinkMethod := [.symlink, .copy, .inPlace]

/-- The name used in reports. -/
def label : LinkMethod → String
  | .symlink => "symlink"
  | .copy => "copy"
  | .inPlace => "in place"

/-- The name used in machine-readable output. -/
def key : LinkMethod → String
  | .symlink => "symlink"
  | .copy => "copy"
  | .inPlace => "in-place"

end LinkMethod

/-- What linking did. -/
inductive LinkOutcome where
  /-- A new link or copy was made. -/
  | created
  /-- The destination already pointed at the source. -/
  | alreadyLinked
  /-- An existing copy of the same source was brought up to date. -/
  | resynced
  deriving DecidableEq, Repr

namespace LinkOutcome

/-- Every outcome, in order. -/
def all : List LinkOutcome := [.created, .alreadyLinked, .resynced]

/-- The name used in reports. -/
def label : LinkOutcome → String
  | .created => "linked"
  | .alreadyLinked => "already linked"
  | .resynced => "resynced"

/-- The name used in machine-readable output. -/
def key : LinkOutcome → String
  | .created => "created"
  | .alreadyLinked => "already-linked"
  | .resynced => "resynced"

end LinkOutcome

end Provisioning
