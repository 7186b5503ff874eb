import Provisioning.Machine
import Provisioning.Config.Store
import Provisioning.Link.Linker
import Provisioning.Text.Style
/-!
One run of `civikitchen` on a machine.

A run ends in success or in a setback: an error of the engine, which keeps
its own exit code; a batch in which some entries failed, already reported
one by one, which exits with the code of the first failure; or a mistake of
the user's, which exits with 1. The setback is printed as `error: ` and its
message on standard error.

Colour follows the environment, as no output here goes to a terminal:
program output is coloured when `CLICOLOR_FORCE` is set to anything but
`0`; help and usage errors are coloured when `NO_COLOR` is unset or empty
and `CLICOLOR_FORCE` is set to anything but `0`.

The configuration of a run is found as the engine finds it, from an
explicit file, `civikitchen.toml` in the working directory, or the
defaults; `--ext-dir` then replaces its extensions root. The host, the
marker store and the seed runner of the machine are set from it.
-/

namespace Provisioning.Kitchen

open Provisioning.Text

/-- Why a run fails. -/
inductive Setback where
  /-- An error of the engine. -/
  | engine (e : Error)
  /-- `failed` of `total` entries failed; `code` is the exit code of the first failure. -/
  | batch (failed total code : Nat)
  /-- A mistake in what the user asked for. -/
  | user (message : String)

namespace Setback

/-- The message printed after `error: `. -/
def message : Setback → String
  | .engine e => e.message
  | .batch failed total _ => toString failed ++ " of " ++ toString total ++ " entries failed"
  | .user m => m

/-- The exit code of the run. -/
def exitCode : Setback → Nat
  | .engine e => e.exitCode
  | .batch _ _ code => code
  | .user _ => 1

end Setback

/-- An action of a run: it changes the machine and prints, and may end in a setback. -/
abbrev Session := EStateM Setback Machine

/-- An engine action as part of a run. -/
def engine {α : Type} (x : Act α) : Session α := fun m =>
  match x m with
  | .ok a m => .ok a m
  | .error e m => .error (.engine e) m

/-- An engine result as part of a run. -/
def engineResult {α : Type} (x : Except Error α) : Session α :=
  match x with
  | .ok a => pure a
  | .error e => throw (.engine e)

/-- Print a line on standard output. -/
def say (s : String) : Session Unit := engine (Act.print (s ++ "\n"))

/-- Print a line on standard error. -/
def complain (s : String) : Session Unit := engine (Act.printErr (s ++ "\n"))

/-- Whether an environment variable is set to anything but `0`. -/
def forced (env : List (String × String)) (var : String) : Bool :=
  match env.lookup var with
  | some v => v != "0"
  | none => false

/-- The palette of program output. -/
def outputPalette (env : List (String × String)) : Palette :=
  if forced env "CLICOLOR_FORCE" then .combined else .none

/-- The palette of help and usage errors. -/
def usagePalette (env : List (String × String)) : Palette :=
  if ((env.lookup "NO_COLOR").getD "") != "" then .none
  else if forced env "CLICOLOR_FORCE" then .separate else .none

/-- The working directory as a path. -/
def workingDir (m : Machine) : String := "/" ++ "/".intercalate m.cwd

/-- What a run needs from its configuration. -/
structure Context where
  config : KitchenConfig
  linker : Linker

namespace Context

/-- Find the configuration, apply the extensions root override, and set up the machine's
host, markers and seed runner from it. -/
def load (explicit : Option String) (extDir : Option String) : Session Context := do
  let m ← get
  let config ← engineResult (KitchenConfig.discover m explicit (workingDir m))
  let config := match extDir with
    | some dir => { config with extensionsRoot := dir }
    | none => config
  let h := config.host
  set { m with
    host := .command
      { program := h.program, siteDir := h.siteDir, execPrefix := h.execPrefix,
        timeoutSecs := h.timeoutSecs, flushOnRefresh := h.flushOnRefresh }
    markers := .files config.extensionsRoot config.seeding.markerFile
    runner := .shell config.seeding.interpreter config.seeding.timeoutSecs }
  pure { config, linker := { root := config.extensionsRoot, strategy := config.link } }

end Context

end Provisioning.Kitchen
