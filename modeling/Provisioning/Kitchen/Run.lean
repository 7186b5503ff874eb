import Provisioning.Kitchen.Interface
import Provisioning.Kitchen.Commands
/-!
The `civikitchen` program as a whole.

A run reads its command line first. Help and the version are printed on
standard output with success; help shown because nothing was given, and
every refused command line, on standard error with exit code 2. Then the
request is carried out: completion scripts and manifest checks need no
configuration; every other request loads it first. A setback is printed
as `error: ` and its message, and gives the exit code.

The run identifier and start time of a provisioning report come from
outside, as the machine has no randomness of its own.
-/

namespace Provisioning.Kitchen

open Provisioning.Text
open Provisioning.Cli

/-- Carry out a request. -/
def execute (inv : Invocation) (p : Palette) (runId startedAt : String) : Session Unit :=
  match inv.request with
  | .completions sh => engine (Act.print (sh.script interface))
  | .checkManifest path => checkManifest p path
  | request => do
    let ctx ← Context.load inv.config inv.extDir
    match request with
    | .link paths strategy => link ctx p paths strategy
    | .installDependencies name => installDependencies ctx p runId startedAt name
    | .seed names force json => seed ctx p names force json
    | .list onlyLocal json => list ctx p onlyLocal json
    | .resetMarkers name all => resetMarkers p name all
    | .provision names sources force json => provision ctx p runId startedAt names sources force json
    | .disable name => disable p name
    | .uninstall name disableFirst => uninstall p name disableFirst
    | .unlink name => unlink ctx p name
    | .checkManifest path => checkManifest p path
    | .completions sh => engine (Act.print (sh.script interface))

/-- Run `civikitchen` with the words after the program name; gives the exit code. -/
def run (args : List String) (runId startedAt : String) : Act Nat := do
  let env := (← get).env
  let usage := usagePalette env
  match Invocation.read env args with
  | .error (.show text) => Act.print (text.render usage); pure 0
  | .error (.helpInstead text) => Act.printErr (text.render usage); pure 2
  | .error (.failure f) => Act.printErr (f.message.render usage); pure 2
  | .ok none => pure 0
  | .ok (some inv) =>
    let p := outputPalette env
    fun m =>
      match execute inv p runId startedAt m with
      | .ok () m => .ok 0 m
      | .error s m =>
        .ok s.exitCode { m with stderr := m.stderr ++ paint p (Style.strongColored .red) "error" ++ ": " ++ s.message ++ "\n" }

end Provisioning.Kitchen
