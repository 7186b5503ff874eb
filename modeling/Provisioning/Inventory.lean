import Provisioning.Marker
import Provisioning.Host.Application
/-!
A read-only view of every known extension.

The inventory joins three sources: the catalog of linked extensions, the
host's listing, and the seed markers. It holds every name that either of
the first two knows, in code-point order. It never fails as a whole: a
listing that fails, or a marker that cannot be looked up, becomes a warning
and leaves the affected fields unknown.

Each extension is placed in its lifecycle,
`unknown → linked → refreshed → enabled ⇄ disabled → uninstalled`, plus
`missing` for a registration whose code is gone. The host reports a
never-installed extension and an uninstalled one alike; a seed marker tells
them apart.
-/

namespace Provisioning

/-- Where an extension is in its lifecycle, as observed. -/
inductive Lifecycle where
  | unknown
  /-- Under the extensions root, not yet seen by the host. -/
  | linked
  /-- Seen by the host, never installed. -/
  | refreshed
  | enabled
  | disabled
  /-- Seen by the host, installed and seeded before. -/
  | uninstalled
  | missing
  deriving DecidableEq, Repr

namespace Lifecycle

/-- Every stage, in lifecycle order. -/
def all : List Lifecycle := [.unknown, .linked, .refreshed, .enabled, .disabled, .uninstalled, .missing]

/-- The lowercase name of a stage. -/
def name : Lifecycle → String
  | .unknown => "unknown"
  | .linked => "linked"
  | .refreshed => "refreshed"
  | .enabled => "enabled"
  | .disabled => "disabled"
  | .uninstalled => "uninstalled"
  | .missing => "missing"

/-- The stage of an extension, from whether it is linked, its host status and
whether it was seeded. -/
def observe (linked : Bool) (status : Option HostStatus) (seeded : Bool) : Lifecycle :=
  match status with
  | some .enabled => .enabled
  | some .disabled => .disabled
  | some .missing => .missing
  | some .uninstalled => if seeded then .uninstalled else .refreshed
  | some .unknown | none => if linked then .linked else .unknown

theorem observe_unlisted (seeded : Bool) : observe true none seeded = .linked := rfl

end Lifecycle

/-- One extension in an inventory. -/
structure InventoryEntry where
  name : String
  /-- The short key, known only for linked extensions. -/
  key : Option String
  path : Option String
  linked : Bool
  /-- Unknown when the host does not list the extension or could not be asked. -/
  hostStatus : Option HostStatus
  enabled : Bool
  /-- Unknown when the marker lookup failed. -/
  seeded : Option Bool
  seedingDeclared : Bool
  dependencies : List String
  lifecycle : Lifecycle

/-- Every known extension, by name, and the problems that left it partial. -/
structure Inventory where
  entries : List InventoryEntry
  warnings : List String

namespace Inventory

/-- Take the inventory of a catalog, the host and the seed markers. -/
def collect (catalog : Catalog) (scope : ListScope) : Act Inventory := do
  let (statuses, warnings) ← tryCatch (do
      let rows ← Host.list scope
      pure (rows.map (fun r => (r.name, r.status)), ([] : List String))) fun e =>
    pure ([], ["host status unavailable: " ++ e.message])
  let statuses := statuses.foldl (fun (acc : List (String × HostStatus)) (n, s) =>
    if acc.any (·.1 == n) then acc.map (fun (k, v) => if k == n then (k, s) else (k, v)) else acc ++ [(n, s)]) []
  let names := Text.sortDedup (catalog.names ++ statuses.map (·.1))
  let mut warnings := warnings
  let mut entries : List InventoryEntry := []
  for name in names do
    let ext := catalog.get? name
    let linked := ext.isSome
    let hostStatus := statuses.lookup name
    let lookup ← if linked then
        tryCatch (Except.ok <$> MarkerStore.exists_ name) fun e => pure (.error e)
      else pure (.ok false)
    let seeded := lookup.toOption
    if let .error e := lookup then
      warnings := warnings ++ ["marker lookup failed for " ++ name ++ ": " ++ e.message]
    entries := entries ++ [{
      name, linked, hostStatus, seeded
      key := ext.map (·.key)
      path := ext.map (·.path)
      enabled := hostStatus == some .enabled
      seedingDeclared := (ext.map (·.manifest.seedingEnabled)).getD false
      dependencies := (ext.map (·.dependencies)).getD []
      lifecycle := Lifecycle.observe linked hostStatus (seeded == some true) }]
  pure { entries, warnings }

/-- The entry of a name. -/
def get? (inv : Inventory) (name : String) : Option InventoryEntry := inv.entries.find? (·.name == name)

/-- Whether a problem left the inventory partial. -/
def isPartial (inv : Inventory) : Bool := !inv.warnings.isEmpty

/-- Keep only the extensions under the extensions root. -/
def linkedOnly (inv : Inventory) : Inventory := { inv with entries := inv.entries.filter (·.linked) }

end Inventory

end Provisioning
