import Provisioning.Host.Command
/-!
The host application, however it is reached.

Each operation goes to the host the machine has: the one kept in memory, or
the one driven through its program. The status of one extension is read
from the local listing.
-/

namespace Provisioning

namespace Host

/-- Run an operation of the host kept in memory, keeping its new state. -/
def onMemory {α : Type} (h : MemoryHost) (x : EStateM Error MemoryHost α) : Act α := fun m =>
  match x.run h with
  | .ok a h2 => .ok a { m with host := .memory h2 }
  | .error e h2 => .error e { m with host := .memory h2 }

/-- The host's listing. -/
def list (scope : ListScope) : Act (List HostEntry) := do
  match (← get).host with
  | .memory h => Act.read fun _ => h.list
  | .command h => h.list scope

/-- Make the host register the code in the extensions root. -/
def refresh : Act Unit := do
  match (← get).host with
  | .memory h => onMemory h MemoryHost.refresh
  | .command h => h.refresh

/-- Enable an extension. -/
def enable (name : String) : Act Unit := do
  match (← get).host with
  | .memory h => onMemory h (MemoryHost.enable name)
  | .command h => h.enable name

/-- Disable an extension. -/
def disable (name : String) : Act Unit := do
  match (← get).host with
  | .memory h => onMemory h (MemoryHost.disable name)
  | .command h => h.disable name

/-- Uninstall an extension. -/
def uninstall (name : String) : Act Unit := do
  match (← get).host with
  | .memory h => onMemory h (MemoryHost.uninstall name)
  | .command h => h.uninstall name

/-- The status of an extension in the local listing, if it is listed. -/
def statusOf (name : String) : Act (Option HostStatus) := do
  let rows ← list .local
  pure ((rows.find? (·.name == name)).map (·.status))

end Host

end Provisioning
