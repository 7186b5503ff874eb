import Provisioning.Cli.Parse
import Provisioning.Cli.Completion.Shell
import Provisioning.Link.Strategy
/-!
The command line of `civikitchen`.

Three arguments are global, given before or after the subcommand: `-v`,
`-c <CONFIG>` (from `CIVIKITCHEN_CONFIG` when absent) and `--ext-dir`
(from `CIVIKITCHEN_EXT_DIR`). A subcommand must be given; without any
argument the help is shown instead. The subcommands are:

* `link-extension <PATHS>... [--strategy S]` — link source trees;
* `install-dependencies <NAME>` — enable an extension after its dependencies;
* `seed-extensions [NAMES]... [--force] [--json]` — run seed scripts;
* `list-extensions [--local] [--json]` — show the inventory;
* `reset-seed-markers [NAME] [--all]` — delete seed markers;
* `provision [NAMES]... [-s DIR]... [--force] [--json]` — link, enable, seed;
* `disable-extension <NAME>`, `uninstall-extension <NAME> [--disable]` and
  `unlink-extension <NAME>` — take an extension back down;
* `check-manifest <PATH>` — validate a manifest strictly;
* `completions <SHELL>` — print a completion script.

A read command line becomes an `Invocation`: the global settings and one
`Request`.
-/

namespace Provisioning.Kitchen

open Provisioning.Cli

/-! ### Arguments -/

/-- `-v`, `--verbose`. -/
def verboseArg : Arg :=
  { id := "verbose", short := some 'v', long := some "verbose", help := "Enable verbose output", global := true }

/-- `-c`, `--config`. -/
def configArg : Arg :=
  { id := "config", short := some 'c', long := some "config", valueName := "CONFIG",
    help := "Configuration file (defaults to ./civikitchen.toml when present)",
    env := some "CIVIKITCHEN_CONFIG", action := .set, check := .path, global := true }

/-- `--ext-dir`. -/
def extDirArg : Arg :=
  { id := "ext_dir", long := some "ext-dir", valueName := "EXT_DIR",
    help := "Extensions root, overriding the configuration file",
    env := some "CIVIKITCHEN_EXT_DIR", action := .set, check := .path, global := true }

/-- A switch known by its long name only. -/
def longSwitch (name help : String) : Arg := { id := name, long := some name, help }

/-- `--json`. -/
def jsonArg : Arg := longSwitch "json" "Output as JSON for scripting"

/-- `--force`. -/
def forceArg : Arg := longSwitch "force" "Ignore existing seed markers"

/-- A positional. -/
def positional (id help : String) (required multiple : Bool) (check : ValueCheck := .any) : Arg :=
  { id, valueName := id.toUpper, help, positional := true, required, check,
    action := if multiple then .append else .set }

/-- The reason a link strategy is refused, if it is. -/
def strategyRefusal (v : String) : Option String :=
  match LinkStrategy.parse v with
  | .ok _ => none
  | .error e => some e.message

/-! ### Commands -/

/-- `link-extension`. -/
def linkCommand : Cli.Command :=
  { name := "link-extension", about := "Make extension source trees visible under the extensions root",
    longAbout := some ("Make extension source trees visible under the extensions root\n\n" ++
      "Examples: civikitchen link-extension /extensions/org.example.base " ++
      "civikitchen link-extension ./a ./b --strategy copy"),
    args := [positional "paths" "Extension source directories" true true .path,
      { id := "strategy", long := some "strategy", valueName := "STRATEGY", action := .set,
        help := "Symlink, copy, or symlink with copy fallback", check := .reads strategyRefusal }] }

/-- `install-dependencies`. -/
def installCommand : Cli.Command :=
  { name := "install-dependencies",
    about := "Enable an extension and everything it depends on, dependencies first",
    args := [positional "name" "Extension name, e.g. org.example.target" true false] }

/-- `seed-extensions`. -/
def seedCommand : Cli.Command :=
  { name := "seed-extensions", about := "Run seed scripts of linked extensions",
    longAbout := some ("Run seed scripts of linked extensions\n\n" ++
      "Without names every linked extension is seeded, dependencies first."),
    args := [positional "names" "Extensions to seed" false true, forceArg, jsonArg] }

/-- `list-extensions`. -/
def listCommand : Cli.Command :=
  { name := "list-extensions", about := "Show linked and host-known extensions with their state",
    args := [longSwitch "local" "Only extensions the host has registered locally", jsonArg] }

/-- `reset-seed-markers`. -/
def resetCommand : Cli.Command :=
  { name := "reset-seed-markers", about := "Delete seed markers so seeding runs again",
    args := [{ positional "name" "Extension whose marker to delete" false false with
        requiredUnless := ["all"], conflicts := ["all"] },
      longSwitch "all" "Delete every marker"] }

/-- `provision`. -/
def provisionCommand : Cli.Command :=
  { name := "provision", about := "Link, enable and seed in one run",
    longAbout := some ("Link, enable and seed in one run\n\n" ++
      "Links every extension found in the configured source directories, then enables and seeds " ++
      "the named extensions (all linked ones when none are named)."),
    args := [positional "names" "Extensions to provision" false true,
      { id := "sources", short := some 's', long := some "source", valueName := "SOURCES",
        help := "Additional source directories to link", action := .append, check := .path },
      forceArg, jsonArg] }

/-- A command taking one extension name. -/
def namedCommand (name about : String) (extra : List Arg := []) : Cli.Command :=
  { name, about, args := positional "name" "Extension name" true false :: extra }

/-- `check-manifest`. -/
def checkCommand : Cli.Command :=
  { name := "check-manifest", about := "Validate an extension's civikitchen.json strictly",
    args := [positional "path" "Extension directory or manifest file" true false .path] }

/-- `completions`. -/
def completionsCommand : Cli.Command :=
  { name := "completions", about := "Generate shell completions",
    longAbout := some ("Generate shell completions\n\n" ++
      "Examples: civikitchen completions bash > ~/.local/share/bash-completion/completions/civikitchen " ++
      "civikitchen completions zsh > ~/.zfunc/_civikitchen"),
    args := [positional "shell" "Shell to generate completions for" true false (.oneOf (Shell.all.map Shell.name))] }

/-- The whole command line as declared. -/
def interface : Cli.Command :=
  { name := "civikitchen", about := "Command-line interface for civikitchen extension provisioning",
    version := some "0.1.0", args := [verboseArg, configArg, extDirArg],
    subcommandRequired := true, helpWhenEmpty := true,
    subcommands := [linkCommand, installCommand, seedCommand, listCommand, resetCommand, provisionCommand,
      namedCommand "disable-extension" "Disable an enabled extension",
      namedCommand "uninstall-extension" "Uninstall a disabled extension"
        [longSwitch "disable" "Disable the extension first"],
      namedCommand "unlink-extension" "Remove an extension from the extensions root",
      checkCommand, completionsCommand] }

/-! ### What a command line asks for -/

/-- One request of the command line. -/
inductive Request where
  | link (paths : List String) (strategy : Option LinkStrategy)
  | installDependencies (name : String)
  | seed (names : List String) (force json : Bool)
  | list (onlyLocal json : Bool)
  | resetMarkers (name : Option String) (all : Bool)
  | provision (names sources : List String) (force json : Bool)
  | disable (name : String)
  | uninstall (name : String) (disableFirst : Bool)
  | unlink (name : String)
  | checkManifest (path : String)
  | completions (shell : Shell)

/-- A command line: the global settings and the request. -/
structure Invocation where
  verbose : Bool
  config : Option String
  extDir : Option String
  request : Request

namespace Request

/-- The request of a subcommand and the arguments it was given. -/
def ofMatches (m : Matches) : Option Request :=
  let name := (m.value? "name").getD ""
  match m.path with
  | ["link-extension"] =>
    some (.link (m.values "paths") ((m.value? "strategy").bind LinkStrategy.ofName?))
  | ["install-dependencies"] => some (.installDependencies name)
  | ["seed-extensions"] => some (.seed (m.values "names") (m.flag "force") (m.flag "json"))
  | ["list-extensions"] => some (.list (m.flag "local") (m.flag "json"))
  | ["reset-seed-markers"] => some (.resetMarkers (m.value? "name") (m.flag "all"))
  | ["provision"] => some (.provision (m.values "names") (m.values "sources") (m.flag "force") (m.flag "json"))
  | ["disable-extension"] => some (.disable name)
  | ["uninstall-extension"] => some (.uninstall name (m.flag "disable"))
  | ["unlink-extension"] => some (.unlink name)
  | ["check-manifest"] => some (.checkManifest ((m.value? "path").getD ""))
  | ["completions"] => ((m.value? "shell").bind Shell.ofName?).map .completions
  | _ => none

end Request

/-- Read a command line, with the environment that global arguments fall back on. -/
def Invocation.read (env : List (String × String)) (words : List String) : Except Stop (Option Invocation) := do
  let m ← interface.parse env words
  pure ((Request.ofMatches m).map fun request =>
    { verbose := m.flag "verbose", config := m.value? "config", extDir := m.value? "ext_dir", request })

end Provisioning.Kitchen
