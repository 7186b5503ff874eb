import Provisioning.Host.Application
import Provisioning.Plan
/-!
Enabling a plan's extensions on the host, in dependency order.

Before its first enabling the installer asks the host to refresh its
registry; that refresh failing is the only way enabling fails as a whole.
Each planned extension is then, in plan order, blocked (when a dependency
failed or was itself blocked), already enabled (by the host's listing taken
once at the start; a listing that fails counts as nothing enabled), or
enabled now, which may fail. After any failure the host is refreshed once
more, so that its registry agrees with what was enabled; a failure of that
refresh is passed over.

Uninstalling refuses an extension the host lists as enabled.
-/

namespace Provisioning

/-- What became of one planned extension when the plan was enabled. -/
inductive EnableOutcome where
  | enabled
  /-- The host already listed it as enabled. -/
  | alreadyEnabled
  | failed (cause : Error)
  /-- Not tried, because the dependency named failed or was blocked. -/
  | blocked (by_ : String)

namespace EnableOutcome

/-- Whether the extension ended up enabled. -/
def isSuccess : EnableOutcome → Bool
  | .enabled | .alreadyEnabled => true
  | _ => false

/-- The error of a failed entry. -/
def error? : EnableOutcome → Option Error
  | .failed e => some e
  | _ => none

/-- The name of the outcome in reports. -/
def label : EnableOutcome → String
  | .enabled => "enabled"
  | .alreadyEnabled => "already enabled"
  | .failed _ => "failed"
  | .blocked _ => "blocked"

end EnableOutcome

/-- The outcome of each planned extension, in plan order. -/
structure EnableReport where
  entries : List (String × EnableOutcome) := []

namespace EnableReport

/-- The outcome of one extension. -/
def outcome? (r : EnableReport) (name : String) : Option EnableOutcome := r.entries.lookup name

/-- Whether every extension ended up enabled. -/
def isSuccess (r : EnableReport) : Bool := r.entries.all (·.2.isSuccess)

/-- The first failure, in plan order. -/
def firstError? (r : EnableReport) : Option Error := r.entries.findSome? (·.2.error?)

end EnableReport

/-- Drives the host's lifecycle; it remembers whether it has refreshed the host. -/
structure Installer where
  refreshed : Bool := false
  deriving Inhabited

namespace Installer

/-- Ask the host to rescan its extensions root. -/
def refresh (_ : Installer) : Act Installer := do
  Host.refresh
  pure { refreshed := true }

/-- One planned extension: its outcome, and the failed names and blocked entries after it. -/
def enableOne (plan : Plan) (enabled : List String) (name : String)
    (failed : List String) (blocked : List (String × String)) :
    Act (EnableOutcome × List String × List (String × String)) := do
  match blocked.lookup name with
  | some by_ => pure (.blocked by_, failed, blocked)
  | none =>
    if enabled.contains name then pure (.alreadyEnabled, failed, blocked)
    else
      tryCatch (do Host.enable name; pure (.enabled, failed, blocked)) fun e =>
        let failed := failed ++ [name]
        pure (.failed e, failed, plan.blockedBy failed)

/-- The names the host's local listing shows enabled; none when the listing fails. -/
def listEnabled : Act (List String) :=
  tryCatch (do
      let rows ← Host.list .local
      pure ((rows.filter (·.status.isEnabled)).map (·.name))) fun _ => pure []

/-- Enable the names in order, after the outcomes so far, carrying the failed names and the
blocked entries. -/
def enableEach (plan : Plan) (enabled : List String) :
    List String → List String × List (String × String) × List (String × EnableOutcome) →
      Act (List String × List (String × String) × List (String × EnableOutcome))
  | [], s => pure s
  | name :: rest, (failed, blocked, entries) => do
    let (outcome, failed, blocked) ← enableOne plan enabled name failed blocked
    enableEach plan enabled rest (failed, blocked, entries ++ [(name, outcome)])

/-- Refresh the host unless this installer already has. -/
def refreshOnce (i : Installer) : Act Installer :=
  if i.refreshed then pure i else i.refresh

/-- Refresh the host once more when something failed; a failure of that refresh is passed
over. -/
def refreshAfter (i : Installer) (failed : List String) : Act Installer :=
  if failed.isEmpty then pure i else tryCatch i.refresh fun _ => pure i

/-- Enable every planned extension in order. -/
def enable (i : Installer) (plan : Plan) : Act (Installer × EnableReport) := do
  let i ← i.refreshOnce
  let enabled ← listEnabled
  let (failed, _, entries) ← enableEach plan enabled plan.order ([], [], [])
  let i ← i.refreshAfter failed
  pure (i, { entries })

/-- Disable an extension. -/
def disable (name : String) : Act Unit := Host.disable name

/-- Uninstall an extension the host does not list as enabled. -/
def uninstall (name : String) : Act Unit := do
  if (← Host.statusOf name) == some .enabled then
    throw (.hostOperation "uninstall" name "extension is enabled; disable it first")
  Host.uninstall name

end Installer

end Provisioning
