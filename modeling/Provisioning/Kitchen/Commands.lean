import Provisioning.Kitchen.Session
import Provisioning.Pipeline
import Provisioning.Seed
import Provisioning.Inventory
import Provisioning.Install
import Provisioning.Encode
import Provisioning.Name
import Provisioning.Text.Layout
/-!
What each subcommand does and prints.

Output is plain text in columns, and colour when the palette has it:
`=>` lines in bold blue announce what was done, names are cyan, details
dim, success green, failure bold red, and what needs attention yellow.
Batches go on after a failed entry and end in a `batch` setback when any
entry failed; every other failure stops the command at once.

* `link-extension` links each path and reports it, or reports the failure
  on standard error;
* `provision` and `install-dependencies` run the pipeline and print its
  report: a row per stage and extension, the order, and the count of
  provisioned extensions when nothing failed;
* `seed-extensions` seeds in dependency order and prints a row per
  extension, those whose dependencies do not resolve first, as failed;
* `reset-seed-markers` deletes markers and names them;
* `list-extensions` prints the inventory as a table;
* `disable-extension`, `uninstall-extension` and `unlink-extension` act on
  one extension;
* `check-manifest` validates a manifest and summarises it.

With `--json`, reports, seed rows and the inventory are printed as indented
JSON instead.
-/

namespace Provisioning.Kitchen

open Provisioning.Text

namespace Look

/-- The `=>` that opens a line about what was done. -/
def arrow (p : Palette) : String := paint p (Style.strongColored .blue) "=>"

/-- A name. -/
def name (p : Palette) (s : String) : String := paint p (Style.colored .cyan) s

/-- A detail. -/
def dim (p : Palette) (s : String) : String := paint p Style.faint s

/-- A success. -/
def good (p : Palette) (s : String) : String := paint p (Style.colored .green) s

/-- A failure. -/
def bad (p : Palette) (s : String) : String := paint p (Style.strongColored .red) s

/-- Something that needs attention. -/
def notable (p : Palette) (s : String) : String := paint p (Style.colored .yellow) s

end Look

/-! ### Reports of the pipeline -/

/-- The label of a stage status, padded to its column. -/
def statusCell (p : Palette) (s : StageStatus) : String :=
  let text := padRight s.name 8
  match s with
  | .done => Look.good p text
  | .skipped => Look.dim p text
  | .failed => Look.bad p text
  | .blocked => Look.notable p text

/-- The row of one stage result. -/
def resultRow (p : Palette) (r : StageResult) : String :=
  "  " ++ Look.name p (padRight r.stage.name 8) ++ " " ++ padRight r.name 40 ++ " " ++ statusCell p r.status ++
    " " ++ Look.dim p r.detail

/-- Print a report, as rows or JSON, and fail when an entry failed. -/
def finish (p : Palette) (runId startedAt : String) (r : ProvisionReport) (json : Bool) : Session Unit := do
  if json then say (Json.pretty (Encode.report runId startedAt r))
  else
    for result in r.results do say (resultRow p result)
    if !r.plan.isEmpty then say (Look.dim p "Order:" ++ " " ++ " -> ".intercalate r.plan)
  let failed := (r.results.filter (·.isFailure)).length
  if failed == 0 then
    if !json then say (Look.arrow p ++ " Provisioned " ++ toString r.plan.length ++ " extension(s)")
  else throw (.batch failed r.results.length r.exitCode)

/-- The source trees under the configured and the extra source directories, each of
which must be a directory. -/
def sourceTrees (ctx : Context) (extra : List String) : Session (List String) := do
  let dirs := ctx.config.sources ++ extra
  let m ← get
  for dir in dirs do
    if !m.isDir dir then throw (.user ("source directory " ++ dir ++ " does not exist"))
  let catalog ← engineResult (Catalog.discoverAll m dirs)
  pure (catalog.extensions.map (·.path))

/-- `provision`: link the source trees, then enable and seed `names`. -/
def provision (ctx : Context) (p : Palette) (runId startedAt : String) (names extra : List String)
    (force json : Bool) : Session Unit := do
  let sources ← sourceTrees ctx extra
  let pipeline : Pipeline := { linker := ctx.linker, forceSeed := force }
  let report ← engine (pipeline.run sources names)
  finish p runId startedAt report json

/-- `install-dependencies`: enable an extension after its dependencies. -/
def installDependencies (ctx : Context) (p : Palette) (runId startedAt : String) (name : String) :
    Session Unit := do
  let pipeline : Pipeline := { linker := ctx.linker, stages := withStages [.install] }
  let report ← engine (pipeline.run [] [name])
  finish p runId startedAt report false

/-! ### Linking -/

/-- The verb for how a link ended. -/
def linkVerb : LinkOutcome → String
  | .created => "Linked"
  | .alreadyLinked => "Already linked"
  | .resynced => "Resynced"

/-- `link-extension`: link every path; a failed path does not stop the others. -/
def link (ctx : Context) (p : Palette) (paths : List String) (strategy : Option LinkStrategy) :
    Session Unit := do
  let linker := match strategy with
    | some s => { ctx.linker with strategy := s }
    | none => ctx.linker
  let results ← engine (linker.linkAll paths)
  let mut first : Option Nat := none
  let mut failed := 0
  for (path, r) in paths.zip results do
    match r with
    | .ok l =>
      say (Look.arrow p ++ " " ++ linkVerb l.outcome ++ " " ++ Look.name p l.name ++ " (" ++ Look.dim p l.method.label ++ ")")
      say ("   " ++ Look.dim p "at" ++ " " ++ l.destination)
    | .error e =>
      complain (Look.bad p "failed" ++ " " ++ path ++ ": " ++ e.message)
      first := first <|> some e.exitCode
      failed := failed + 1
  match first with
  | some code => throw (.batch failed paths.length code)
  | none => pure ()

/-- `unlink-extension`: remove an extension from the extensions root. -/
def unlink (ctx : Context) (p : Palette) (name : String) : Session Unit := do
  if ← engine (ctx.linker.unlink name) then say (Look.arrow p ++ " Unlinked " ++ Look.name p name)
  else say (Look.arrow p ++ " " ++ Look.name p name ++ " is not linked")

/-! ### Seeding -/

/-- A seed row as JSON. -/
def seedRowJson (name outcome : String) (error : Option String) : Json :=
  .obj ([("name", .str name), ("outcome", .str outcome)] ++ (error.map fun e => ("error", Json.str e)).toList)

/-- `seed-extensions`: seed `names`, or every linked extension, in dependency order. -/
def seed (ctx : Context) (p : Palette) (names : List String) (force json : Bool) : Session Unit := do
  let catalog ← engineResult (Catalog.discover (← get) ctx.linker.root)
  let seeding ← engineResult (seedOrder catalog names)
  let results ← engine (seedAll force (seeding.order.filterMap catalog.get?))
  let entries := seeding.unresolved.map (fun (n, e) => (n, (.error e : Except Error SeedOutcome))) ++ results
  let mut rows : List Json := []
  let mut first : Option Nat := none
  let mut failed := 0
  for (name, r) in entries do
    match r with
    | .ok outcome =>
      if !json then
        let label := if outcome == .seeded then Look.good p outcome.label else Look.dim p outcome.label
        say ("  " ++ padRight name 40 ++ " " ++ label)
      rows := rows ++ [seedRowJson name outcome.label none]
    | .error e =>
      if !json then say ("  " ++ padRight name 40 ++ " " ++ Look.bad p "failed" ++ " " ++ e.message)
      first := first <|> some e.exitCode
      failed := failed + 1
      rows := rows ++ [seedRowJson name "failed" (some e.message)]
  if json then say (Json.pretty (.arr rows))
  match first with
  | some code => throw (.batch failed rows.length code)
  | none => if !json then say (Look.arrow p ++ " Seeding complete")

/-- `reset-seed-markers`: delete the marker of `name`, or every marker. -/
def resetMarkers (p : Palette) (name : Option String) (all : Bool) : Session Unit := do
  let target ← match name, all with
    | _, true => pure ResetTarget.all
    | some n, false => do
      engineResult (Name.validate n)
      pure (ResetTarget.one n)
    | none, false => throw (Setback.user "name an extension or pass --all")
  let cleared ← engine (Provisioning.resetMarkers target)
  if cleared.isEmpty then say (Look.arrow p ++ " No seed markers to delete")
  for n in cleared do say (Look.arrow p ++ " Reset seed marker for " ++ Look.name p n)

/-! ### The inventory -/

/-- `yes` or `no`, padded to the column. -/
def yesNo (p : Palette) (b : Bool) : String :=
  if b then Look.good p (padRight "yes" 7) else Look.dim p (padRight "no" 7)

/-- Whether an extension was seeded, padded to the column. -/
def seededCell (p : Palette) (e : InventoryEntry) : String :=
  match e.seeded, e.seedingDeclared with
  | none, _ => Look.notable p (padRight "?" 8)
  | some true, _ => Look.good p (padRight "yes" 8)
  | some false, true => Look.notable p (padRight "pending" 8)
  | some false, false => Look.dim p (padRight "-" 8)

/-- `list-extensions`: the inventory as a table or JSON; warnings go to standard error. -/
def list (ctx : Context) (p : Palette) (onlyLocal json : Bool) : Session Unit := do
  let catalog ← engineResult (Catalog.discover (← get) ctx.linker.root)
  let inv ← engine (Inventory.collect catalog (if onlyLocal then .local else .all))
  for w in inv.warnings do complain (paint p (Style.strongColored .yellow) "warning:" ++ " " ++ w)
  if json then say (Json.pretty (Encode.inventory inv))
  else if inv.entries.isEmpty then say ("No extensions found under " ++ ctx.linker.root)
  else
    let head (w : Nat) (s : String) : String := paint p Style.strong (padRight s w)
    say (head 40 "NAME" ++ " " ++ head 7 "LINKED" ++ " " ++ head 12 "HOST" ++ " " ++ head 8 "SEEDED" ++ " " ++
      paint p Style.strong "LIFECYCLE")
    for e in inv.entries do
      let host := (e.hostStatus.map HostStatus.name).getD "-"
      say (padRight e.name 40 ++ " " ++ yesNo p e.linked ++ " " ++ padRight host 12 ++ " " ++ seededCell p e ++
        " " ++ Look.name p e.lifecycle.name)

/-! ### One extension -/

/-- `disable-extension`. -/
def disable (p : Palette) (name : String) : Session Unit := do
  engineResult (Name.validate name)
  engine (Installer.disable name)
  say (Look.arrow p ++ " Disabled " ++ Look.name p name)

/-- `uninstall-extension`, disabling first when asked. -/
def uninstall (p : Palette) (name : String) (disableFirst : Bool) : Session Unit := do
  engineResult (Name.validate name)
  if disableFirst then
    engine (Installer.disable name)
    say (Look.arrow p ++ " Disabled " ++ Look.name p name)
  engine (Installer.uninstall name)
  say (Look.arrow p ++ " Uninstalled " ++ Look.name p name)

/-- `check-manifest`: validate a manifest strictly; a directory stands for its manifest. -/
def checkManifest (p : Palette) (path : String) : Session Unit := do
  let m ← get
  let file := if m.isDir path then Path.join path Manifest.fileName else path
  let manifest ← engineResult (Manifest.fromPath m file)
  say (Look.arrow p ++ " " ++ file ++ " is valid")
  let deps := if manifest.dependencies.isEmpty then "none"
    else Look.notable p (", ".intercalate manifest.dependencies)
  say ("   " ++ Look.dim p "Dependencies:" ++ " " ++ deps)
  match manifest.seeding with
  | some s =>
    say ("   " ++ Look.dim p "Seeding:" ++ " " ++ s.script ++ " (enabled: " ++ toString s.enabled ++
      ", runOnce: " ++ toString s.runOnce ++ ")")
  | none => say ("   " ++ Look.dim p "Seeding:" ++ " none")

end Provisioning.Kitchen
