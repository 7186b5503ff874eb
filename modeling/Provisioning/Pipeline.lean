import Provisioning.Link.Linker
import Provisioning.Install
import Provisioning.Seed
import Provisioning.Graph.Resolve
/-!
The provisioning pipeline: link, resolve, install, seed.

The stages run in that order, each on the install plan built so far, and
record one result per extension they touch. An extension that fails at a
stage is left out of the later ones; the others carry on.

* Link: each source tree is linked under the extensions root.
* Resolve: the catalog of the extensions root is read, and the requested
  extensions (the targets; else those linked in this run; else every one in
  the catalog) are resolved, each on its own, into one plan. A request that
  cannot be resolved fails alone. An empty plan ends the run.
* Install: the plan is enabled on the host. A failed first refresh fails the
  whole stage, every planned extension with it, and ends the run.
* Seed: each planned extension that has not failed is seeded.

Resolution always runs when installing or seeding, since both work from the
plan. A run succeeds when no result failed or was blocked; its exit code is
that of the first failure's error kind, 1 when the first failures have none.
-/

namespace Provisioning

/-- The status of one extension at one stage. -/
inductive StageStatus where
  | done
  | skipped
  | failed
  | blocked
  deriving DecidableEq, Repr

/-- The lowercase name of a status. -/
def StageStatus.name : StageStatus → String
  | .done => "done"
  | .skipped => "skipped"
  | .failed => "failed"
  | .blocked => "blocked"

/-- What one stage did for one extension. -/
structure StageResult where
  name : String
  stage : Stage
  status : StageStatus
  detail : String
  errorKind : Option ErrorKind

namespace StageResult

/-- The stage did its work. -/
def done (name : String) (stage : Stage) (detail : String) : StageResult :=
  ⟨name, stage, .done, detail, none⟩

/-- There was nothing to do. -/
def skipped (name : String) (stage : Stage) (detail : String) : StageResult :=
  ⟨name, stage, .skipped, detail, none⟩

/-- The stage failed with an error. -/
def failed (name : String) (stage : Stage) (e : Error) : StageResult :=
  ⟨name, stage, .failed, e.message, some e.kind⟩

/-- The stage was not tried because of a failed dependency. -/
def blocked (name : String) (stage : Stage) (by_ : String) : StageResult :=
  ⟨name, stage, .blocked, "blocked by " ++ by_, none⟩

/-- Whether the result is a failure. -/
def isFailure (r : StageResult) : Bool := r.status == .failed || r.status == .blocked

end StageResult

/-- The install result of a planned name. -/
def EnableOutcome.stageResult (name : String) : EnableOutcome → StageResult
  | .enabled => .done name .install "enabled"
  | .alreadyEnabled => .skipped name .install "already enabled"
  | .failed e => .failed name .install e
  | .blocked by_ => .blocked name .install by_

/-- Everything one provisioning run did. -/
structure ProvisionReport where
  /-- The final install plan, dependencies first. -/
  plan : List String := []
  results : List StageResult := []

namespace ProvisionReport

/-- Whether nothing failed. -/
def isSuccess (r : ProvisionReport) : Bool := !r.results.any (·.isFailure)

/-- The results of one extension, in stage order. -/
def resultsFor (r : ProvisionReport) (name : String) : List StageResult := r.results.filter (·.name == name)

/-- 0, or the exit code of the first failure that has an error kind, or 1. -/
def exitCode (r : ProvisionReport) : Nat :=
  match (r.results.filter (·.isFailure)).findSome? (·.errorKind) with
  | some k => k.exitCode
  | none => if r.isSuccess then 0 else 1

end ProvisionReport

/-- The stages to run: those given, with resolution whenever installing or
seeding, in stage order, each once. -/
def withStages (stages : List Stage) : List Stage :=
  let stages := if stages.any (fun s => s == .install || s == .seed) then stages ++ [.resolve] else stages
  Stage.all.filter stages.contains

/-- What a run carries from stage to stage. -/
structure RunState where
  linkRan : Bool := false
  linked : List String := []
  catalog : Catalog := {}
  plan : Plan := {}
  failed : List String := []
  results : List StageResult := []

/-- A provisioning pipeline over one extensions root and the machine's host. -/
structure Pipeline where
  linker : Linker
  stages : List Stage := Stage.all
  forceSeed : Bool := false

namespace Pipeline

/-- Record the outcome of linking one source. -/
def recordLink (run : RunState) : String × Except Error LinkedExtension → RunState
  | (_, .ok linked) =>
    let detail := linked.outcome.label ++ " (" ++ linked.method.label ++ ")"
    { run with results := run.results ++ [.done linked.name .link detail],
               linked := run.linked ++ [linked.name] }
  | (source, .error e) => { run with results := run.results ++ [.failed source .link e] }

/-- Link the source trees. -/
def linkStage (p : Pipeline) (sources : List String) (run : RunState) : Act RunState := do
  let results ← p.linker.linkAll sources
  pure ((sources.zip results).foldl recordLink { run with linkRan := !sources.isEmpty })

/-- Record the resolution of one request: merge its plan, or fail the request. -/
def recordResolution (run : RunState) : String × Except Error Plan → RunState
  | (_, .ok plan) => { run with plan := run.plan.merge plan }
  | (name, .error e) =>
    { run with failed := run.failed ++ [name], results := run.results ++ [.failed name .resolve e] }

/-- Record where a planned name stands: after its dependencies. -/
def recordPlanned (run : RunState) (name : String) : RunState :=
  let deps := run.plan.depsOf name
  let detail := if deps.isEmpty then "no dependencies" else "after " ++ ", ".intercalate deps
  { run with results := run.results ++ [.done name .resolve detail] }

/-- Resolve the requested extensions into the plan; `false` when nothing can go on. -/
def resolveStage (p : Pipeline) (targets : List String) (run : RunState) : Act (RunState × Bool) := do
  let m ← get
  match Catalog.discover m p.linker.root with
  | .error e => pure ({ run with results := run.results ++ [.failed "*" .resolve e] }, false)
  | .ok catalog =>
    let requested := if !targets.isEmpty then targets else if run.linkRan then run.linked else catalog.names
    let run := (catalog.graph.resolveEach requested).foldl recordResolution { run with catalog }
    let run := run.plan.order.foldl recordPlanned run
    pure (run, !run.plan.isEmpty)

/-- Record the outcome of enabling one planned name; a name that did not end up enabled fails. -/
def recordInstall (run : RunState) : String × EnableOutcome → RunState
  | (name, outcome) =>
    { run with results := run.results ++ [outcome.stageResult name],
               failed := if outcome.isSuccess then run.failed else run.failed ++ [name] }

/-- Enable the plan on the host; `false` when the host could not be refreshed. -/
def installStage (run : RunState) : Act (RunState × Bool) := do
  let attempt ← tryCatch (Except.ok <$> ({} : Installer).enable run.plan) fun e => pure (.error e)
  match attempt with
  | .error e =>
    pure ({ run with results := run.results ++ [.failed "*" .install e], failed := run.failed ++ run.plan.order },
      false)
  | .ok (_, report) => pure (report.entries.foldl recordInstall run, true)

/-- Seed one planned extension that has not failed, recording the result. -/
def seedOne (p : Pipeline) (run : RunState) (name : String) : Act RunState := do
  match run.catalog.get? name with
  | none => pure { run with results := run.results ++ [.failed name .seed (.unknownExtension name)] }
  | some ext =>
    let result ← tryCatch (do
        let outcome ← seed p.forceSeed ext
        pure (if outcome.ran then StageResult.done name .seed outcome.label
          else StageResult.skipped name .seed outcome.label)) fun e => pure (.failed name .seed e)
    pure { run with results := run.results ++ [result] }

/-- Seed the names in order, passing over the failed ones. -/
def seedEach (p : Pipeline) : List String → RunState → Act RunState
  | [], run => pure run
  | name :: rest, run => do
    if run.failed.contains name then p.seedEach rest run
    else p.seedEach rest (← p.seedOne run name)

/-- Seed every planned extension that has not failed. -/
def seedStage (p : Pipeline) (run : RunState) : Act RunState := p.seedEach run.plan.order run

/-- Run the stages in order over one run's state, stopping when a stage says so. -/
def runStages (p : Pipeline) (sources targets : List String) : List Stage → RunState → Act RunState
  | [], run => pure run
  | stage :: rest, run => do
    match stage with
    | .link => p.runStages sources targets rest (← p.linkStage sources run)
    | .resolve =>
      let (run, go) ← p.resolveStage targets run
      if go then p.runStages sources targets rest run else pure run
    | .install =>
      let (run, go) ← installStage run
      if go then p.runStages sources targets rest run else pure run
    | .seed => p.runStages sources targets rest (← p.seedStage run)

/-- Link `sources`, then provision `targets`: with no targets, the extensions this
run linked, or every extension under the extensions root when no sources were given. -/
def run (p : Pipeline) (sources targets : List String) : Act ProvisionReport := do
  let run ← p.runStages sources targets p.stages {}
  pure { plan := run.plan.order, results := run.results }

end Pipeline

/-- The extensions to seed in dependency order, and the requests whose
dependencies cannot be resolved. -/
structure SeedOrder where
  order : List String
  unresolved : List (String × Error)

/-- The seed order of some names of the catalog, or of all of it when none are
given. A request caught in a cycle or missing a dependency is left unresolved
and not seeded; names not in the catalog are an error. -/
def seedOrder (catalog : Catalog) (names : List String) : Except Error SeedOrder := do
  for name in names do
    if !catalog.contains name then throw (.unknownExtension name)
  let requested := if names.isEmpty then catalog.names else names
  let (plan, unresolved) := (catalog.graph.resolveEach requested).foldl
    (fun (plan, unresolved) (name, result) =>
      match result with
      | .ok resolved => (plan.merge resolved, unresolved)
      | .error e => (plan, unresolved ++ [(name, e)])) (({} : Plan), ([] : List (String × Error)))
  pure { order := plan.order.filter fun n => names.isEmpty || names.contains n, unresolved }

end Provisioning
