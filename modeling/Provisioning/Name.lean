import Provisioning.Error
/-!
Extension names.

An extension is named in reverse-domain style (`org.example.base`). Since
the name becomes a directory name under the extensions root, it must be
non-empty, must not start with a dot (which would hide it, or climb out of
the root as `..`), and may hold only ASCII letters and digits, dots,
hyphens and underscores. The short key of a name is its last dot-separated
segment.
-/

namespace Provisioning.Name

/-- Characters allowed in an extension name. -/
def allowedChar (c : Char) : Bool :=
  c.isAlphanum || c = '.' || c = '-' || c = '_'

/-- Why a name is refused, checked in this order: empty, leading dot, bad character. -/
def problem? (name : String) : Option String :=
  if name.isEmpty then some "extension name must not be empty"
  else if name.startsWith "." then some "extension name must not start with a dot"
  else if !name.toList.all allowedChar then
    some "extension name must contain only alphanumeric characters, dots, hyphens, or underscores"
  else none

/-- Accept a name that may serve as an extension directory name. -/
def validate (name : String) : Except Error Unit :=
  match problem? name with
  | some reason => .error (.invalidName name reason)
  | none => .ok ()

/-- Whether a name is acceptable. -/
def isValid (name : String) : Bool := (problem? name).isNone

/-- The last dot-separated segment of a name. -/
def shortKey (name : String) : String :=
  String.ofList ((name.toList.reverse.takeWhile (· ≠ '.')).reverse)

example : shortKey "org.example.base" = "base" := by decide

example : problem? "" = some "extension name must not be empty" := by
  decide

end Provisioning.Name
