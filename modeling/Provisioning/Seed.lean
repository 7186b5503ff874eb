import Provisioning.Marker
/-!
Running seed scripts, once per extension.

An extension's seed script runs when its manifest declares enabled seeding.
A `runOnce` script leaves a marker after it succeeded, and while the marker
is there the script does not run again, unless seeding is forced. The
script is looked up in the extension's directory and must be a file; the
marker is written only after the script succeeded, so a failed script runs
again next time.

Scripts run through an interpreter (`sh`, say) in the extension's directory,
with the extension's name, short key and directory in the environment
variables `CIVIKITCHEN_EXTENSION`, `CIVIKITCHEN_EXTENSION_KEY` and
`CIVIKITCHEN_EXTENSION_DIR`. A recording runner stands in for it where
nothing may be run: it notes each call, and fails for the names it is given.
-/

namespace Provisioning

/-- What seeding an extension did, when it did not fail. -/
inductive SeedOutcome where
  /-- The script ran and the marker was written. -/
  | seeded
  /-- The manifest declares no seeding. -/
  | notDeclared
  /-- Seeding is declared but not enabled. -/
  | disabled
  /-- The script runs once, and its marker is there. -/
  | alreadySeeded
  deriving DecidableEq, Repr

namespace SeedOutcome

/-- Every outcome, in order. -/
def all : List SeedOutcome := [.seeded, .notDeclared, .disabled, .alreadySeeded]

/-- The name used in reports. -/
def label : SeedOutcome → String
  | .seeded => "seeded"
  | .notDeclared => "no seeding declared"
  | .disabled => "seeding disabled"
  | .alreadySeeded => "already seeded"

/-- The name used in machine-readable output. -/
def key : SeedOutcome → String
  | .seeded => "seeded"
  | .notDeclared => "not-declared"
  | .disabled => "disabled"
  | .alreadySeeded => "already-seeded"

/-- Whether the script ran. -/
def ran (o : SeedOutcome) : Bool := o == .seeded

end SeedOutcome

/-- The message of the recording runner's failures. -/
def injectedFailure : String := "exit code 1: injected failure"

/-- Run the seed script of an extension with the machine's runner. -/
def runScript (ext : Extension) (script : String) : Act Unit := do
  match (← get).runner with
  | .recording failing runs =>
    modify fun m => { m with runner := .recording failing (runs ++ [(ext.name, script)]) }
    if failing.contains ext.name then throw (.seedExecution ext.name injectedFailure)
  | .shell interpreter _ =>
    let env := [("CIVIKITCHEN_EXTENSION", ext.name), ("CIVIKITCHEN_EXTENSION_KEY", ext.key),
      ("CIVIKITCHEN_EXTENSION_DIR", ext.path)]
    let cmd : Command := ⟨interpreter, [script], some ext.path, env⟩
    match ← Act.runCommand cmd with
    | .error e => throw (.seedExecution ext.name (startFailure interpreter e))
    | .ok out => if !out.success then throw (.seedExecution ext.name out.failureText)

/-- Seed an extension: run its script unless it declares none, has seeding
disabled, or (running once, not forced) has its marker already. -/
def seed (force : Bool) (ext : Extension) : Act SeedOutcome := do
  match ext.manifest.seeding with
  | none => pure .notDeclared
  | some s =>
    if !s.enabled then return .disabled
    if s.runOnce && !force then
      if ← MarkerStore.exists_ ext.name then return .alreadySeeded
    let script := Path.join ext.path s.script
    if !(← get).isFile script then
      throw (.seedExecution ext.name ("seed script not found: " ++ script))
    runScript ext script
    tryCatch (MarkerStore.set ext.name) fun e =>
      throw (.seedExecution ext.name ("script succeeded but the marker was not written: " ++ e.message))
    pure .seeded

/-- Seed each extension in order; a failure affects only its own entry. -/
def seedAll (force : Bool) (exts : List Extension) : Act (List (String × Except Error SeedOutcome)) :=
  exts.mapM fun ext => do
    let r ← tryCatch (.ok <$> seed force ext) fun e => pure (.error e)
    pure (ext.name, r)

/-- Which markers to remove. -/
inductive ResetTarget where
  | one (name : String)
  | all

/-- Remove markers, giving the names whose marker was there. -/
def resetMarkers (target : ResetTarget) : Act (List String) := do
  let names ← match target with
    | .one name => pure [name]
    | .all => MarkerStore.list
  names.filterM MarkerStore.clear

end Provisioning
