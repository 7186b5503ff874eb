import Provisioning.Text.Blank
/-!
What the host says about an extension.

The host application keeps its own registry of extensions. Its listing
gives each one a status word; the words are read after trimming blanks:
`installed` and `enabled` mean enabled, the empty word means uninstalled,
the `-missing` forms mean the registry still lists the extension but its
code is gone, and any other word is unknown.
-/

namespace Provisioning

/-- An extension's status in the host's registry. -/
inductive HostStatus where
  | enabled
  | disabled
  | uninstalled
  | missing
  | unknown
  deriving DecidableEq, Repr, Inhabited

namespace HostStatus

/-- Every status, in the order they are listed. -/
def all : List HostStatus := [.enabled, .disabled, .uninstalled, .missing, .unknown]

/-- Read a status word of the host's listing. -/
def ofWord (word : String) : HostStatus :=
  match Text.trim word with
  | "installed" | "enabled" => .enabled
  | "disabled" => .disabled
  | "uninstalled" | "" => .uninstalled
  | "installed-missing" | "disabled-missing" => .missing
  | _ => .unknown

/-- The lowercase name of a status. -/
def name : HostStatus → String
  | .enabled => "enabled"
  | .disabled => "disabled"
  | .uninstalled => "uninstalled"
  | .missing => "missing"
  | .unknown => "unknown"

/-- Whether the status is `enabled`. -/
def isEnabled (s : HostStatus) : Bool := s == .enabled

example : ofWord " installed " = .enabled := by decide

end HostStatus

/-- One row of the host's listing. -/
structure HostEntry where
  name : String
  status : HostStatus
  deriving DecidableEq, Repr, Inhabited

/-- Which extensions a listing covers: those of the local extensions root, or those and the
host's remote catalog too. -/
inductive ListScope where
  | local
  | all
  deriving DecidableEq, Repr

end Provisioning
