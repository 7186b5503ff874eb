import Provisioning.Json.Value
import Provisioning.Pipeline
import Provisioning.Inventory
/-!
Machine-readable forms of what provisioning reports.

Each form lists its fields in the order they are printed. Names of
statuses, stages and kinds are lowercase words (kebab-case where a name has
several), and a missing value is `null`.
-/

namespace Provisioning

namespace Encode

/-- A host status. -/
def hostStatus (s : HostStatus) : Json := .str s.name

/-- An error kind. -/
def errorKind (k : ErrorKind) : Json := .str k.label

/-- An extension made visible under the extensions root. -/
def linked (l : LinkedExtension) : Json :=
  .obj [("name", .str l.name), ("key", .str l.key), ("source", .str l.source),
    ("destination", .str l.destination), ("method", .str l.method.key), ("outcome", .str l.outcome.key)]

/-- One extension of an inventory. -/
def inventoryEntry (e : InventoryEntry) : Json :=
  .obj [("name", .str e.name), ("key", Json.opt .str e.key), ("path", Json.opt .str e.path),
    ("linked", .bool e.linked), ("host_status", Json.opt hostStatus e.hostStatus),
    ("enabled", .bool e.enabled), ("seeded", Json.opt .bool e.seeded),
    ("seeding_declared", .bool e.seedingDeclared), ("dependencies", Json.strs e.dependencies),
    ("lifecycle", .str e.lifecycle.name)]

/-- An inventory. -/
def inventory (inv : Inventory) : Json :=
  .obj [("entries", .arr (inv.entries.map inventoryEntry)), ("warnings", Json.strs inv.warnings)]

/-- What one stage did for one extension. -/
def stageResult (r : StageResult) : Json :=
  .obj [("name", .str r.name), ("stage", .str r.stage.name), ("status", .str r.status.name),
    ("detail", .str r.detail), ("error_kind", Json.opt errorKind r.errorKind)]

/-- A provisioning report, with the run's identifier and start time. -/
def report (runId startedAt : String) (r : ProvisionReport) : Json :=
  .obj [("run_id", .str runId), ("started_at", .str startedAt), ("plan", Json.strs r.plan),
    ("results", .arr (r.results.map stageResult))]

end Encode

end Provisioning
