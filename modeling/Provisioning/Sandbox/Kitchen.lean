import Provisioning.Machine
import Provisioning.FileTree.Listing
import Provisioning.FileTree.Path
import Provisioning.Text.Blank
/-!
A provisioning sandbox: a kitchen.

A kitchen is one directory holding everything a provisioning run touches:

* `sources/`, extension source trees;
* `ext/`, the extensions root;
* `site/`, the site directory the host program runs in;
* `state/`, the registry of the stand-in host program (`<key> <status>`
  lines), its call log and the failures planted in it;
* `bin/cv`, the stand-in host program, a shell script;
* `seed-runs.log`, written by counting seed scripts.

The stand-in host program logs every call, registers every directory of
the extensions root as `uninstalled` on `ext:list --refresh`, lists the
registry as JSON on `ext:list`, sets `installed` on `ext:enable` (refusing
unknown keys), refuses `ext:uninstall` while an extension is `installed`,
and fails an operation with a planted message when a file
`state/fail-<operation>-<target>` exists.

The kitchen writes a configuration file pointing at all of this, and reads
back what the host and the seed scripts left.
-/

namespace Provisioning.Sandbox

/-- The lines of a text: the pieces between line breaks, each without a carriage return
at its end, and without a last empty piece after a final line break. -/
def textLines (s : String) : List String :=
  let pieces := match (s.splitOn "\n").reverse with
    | "" :: rest => rest.reverse
    | pieces => pieces.reverse
  pieces.map fun l => if l.endsWith "\r" then String.ofList l.toList.dropLast else l

/-- A kitchen, by its root directory. -/
structure Kitchen where
  root : String

namespace Kitchen

/-- Extension source trees. -/
def sourcesDir (k : Kitchen) : String := Path.join k.root "sources"

/-- The extensions root. -/
def extensionsRoot (k : Kitchen) : String := Path.join k.root "ext"

/-- The site directory. -/
def siteDir (k : Kitchen) : String := Path.join k.root "site"

/-- The state of the stand-in host program. -/
def stateDir (k : Kitchen) : String := Path.join k.root "state"

/-- The stand-in host program. -/
def hostProgram (k : Kitchen) : String := Path.join (Path.join k.root "bin") "cv"

/-- The log of counting seed scripts. -/
def seedLog (k : Kitchen) : String := Path.join k.root "seed-runs.log"

/-- The configuration file. -/
def configPath (k : Kitchen) : String := Path.join k.root "civikitchen.toml"

/-- The registry of the stand-in host program. -/
def registryPath (k : Kitchen) : String := Path.join k.stateDir "registry"

/-- The text of the stand-in host program, keeping its state in `stateDir` and
registering the directories of `extDir`. -/
def hostScript (stateDir extDir : String) : String :=
  "#!/bin/sh\n" ++
  "STATE_DIR='" ++ stateDir ++ "'\n" ++
  "EXT_DIR='" ++ extDir ++ "'\n" ++
  "STATE=\"$STATE_DIR/registry\"\n" ++
  "echo \"$*\" >> \"$STATE_DIR/calls.log\"\n" ++
  "touch \"$STATE\"\n" ++
  "\n" ++
  "status_of() \x7b awk -v k=\"$1\" '$1 == k \x7b print $2 \x7d' \"$STATE\"; \x7d\n" ++
  "set_status() \x7b\n" ++
  "  grep -v \"^$1 \" \"$STATE\" > \"$STATE.tmp\"\n" ++
  "  echo \"$1 $2\" >> \"$STATE.tmp\"\n" ++
  "  mv \"$STATE.tmp\" \"$STATE\"\n" ++
  "\x7d\n" ++
  "fail_if_injected() \x7b\n" ++
  "  if [ -f \"$STATE_DIR/fail-$1-$2\" ]; then\n" ++
  "    cat \"$STATE_DIR/fail-$1-$2\" >&2\n" ++
  "    exit 1\n" ++
  "  fi\n" ++
  "\x7d\n" ++
  "\n" ++
  "case \"$1\" in\n" ++
  "  flush)\n" ++
  "    fail_if_injected flush all\n" ++
  "    ;;\n" ++
  "  ext:list)\n" ++
  "    if [ \"$2\" = \"--refresh\" ]; then\n" ++
  "      fail_if_injected refresh all\n" ++
  "      for d in \"$EXT_DIR\"/*/; do\n" ++
  "        [ -d \"$d\" ] || continue\n" ++
  "        k=$(basename \"$d\")\n" ++
  "        [ -n \"$(status_of \"$k\")\" ] || set_status \"$k\" uninstalled\n" ++
  "      done\n" ++
  "      exit 0\n" ++
  "    fi\n" ++
  "    fail_if_injected list all\n" ++
  "    printf '['\n" ++
  "    sep=''\n" ++
  "    while read -r k s; do\n" ++
  "      [ -n \"$k\" ] || continue\n" ++
  "      printf '%s\x7b\"key\":\"%s\",\"status\":\"%s\"\x7d' \"$sep\" \"$k\" \"$s\"\n" ++
  "      sep=','\n" ++
  "    done < \"$STATE\"\n" ++
  "    printf ']\\n'\n" ++
  "    ;;\n" ++
  "  ext:enable)\n" ++
  "    fail_if_injected enable \"$2\"\n" ++
  "    if [ -z \"$(status_of \"$2\")\" ]; then\n" ++
  "      echo \"Error: Unknown extension: $2\" >&2\n" ++
  "      exit 1\n" ++
  "    fi\n" ++
  "    set_status \"$2\" installed\n" ++
  "    ;;\n" ++
  "  ext:disable)\n" ++
  "    fail_if_injected disable \"$2\"\n" ++
  "    set_status \"$2\" disabled\n" ++
  "    ;;\n" ++
  "  ext:uninstall)\n" ++
  "    fail_if_injected uninstall \"$2\"\n" ++
  "    if [ \"$(status_of \"$2\")\" = \"installed\" ]; then\n" ++
  "      echo \"Error: $2 is enabled\" >&2\n" ++
  "      exit 1\n" ++
  "    fi\n" ++
  "    set_status \"$2\" uninstalled\n" ++
  "    ;;\n" ++
  "  *)\n" ++
  "    echo \"unsupported: $*\" >&2\n" ++
  "    exit 2\n" ++
  "    ;;\n" ++
  "esac\n"

/-- Lay out a kitchen in a file tree and install the stand-in host program. -/
def create (k : Kitchen) (t : FileTree) : Except OsError FileTree := do
  let t ← [k.sourcesDir, k.extensionsRoot, k.siteDir, k.stateDir, Path.join k.root "bin"].foldlM
    (fun t d => t.mkdirAll [] d) t
  t.writeWithParents [] k.hostProgram (bytesOf (hostScript k.stateDir k.extensionsRoot)) (some 0o755)

/-- The configuration text pointing at the kitchen, with `extra` after the sources. -/
def configText (k : Kitchen) (extra : String) : String :=
  "extensions_root = '" ++ k.extensionsRoot ++ "'\nsources = ['" ++ k.sourcesDir ++ "']\n" ++ extra ++ "\n" ++
  "[host]\nprogram = '" ++ k.hostProgram ++ "'\nsite_dir = '" ++ k.siteDir ++ "'\ntimeout_secs = 30\n\n" ++
  "[seeding]\ninterpreter = 'sh'\ntimeout_secs = 30\n"

/-- Write the configuration file. -/
def writeConfig (k : Kitchen) (extra : String) (t : FileTree) : Except OsError FileTree :=
  t.writeWithParents [] k.configPath (bytesOf (k.configText extra)) none

/-- Make the stand-in host program fail `operation` on `target` with `message`. -/
def failHost (k : Kitchen) (operation target message : String) (t : FileTree) : Except OsError FileTree :=
  t.writeWithParents [] (Path.join k.stateDir ("fail-" ++ operation ++ "-" ++ target)) (bytesOf message) none

/-- The lines of a text file, none when it cannot be read. -/
def fileLines (t : FileTree) (p : String) : List String :=
  match t.readText [] p with
  | .ok text => textLines text
  | .error _ => []

/-- Register an extension with a status, replacing its earlier line. -/
def setHostStatus (k : Kitchen) (name status : String) (t : FileTree) : Except OsError FileTree :=
  let kept := (fileLines t k.registryPath).filter fun l => !l.startsWith (name ++ " ")
  t.writeWithParents [] k.registryPath (bytesOf ("\n".intercalate (kept ++ [name ++ " " ++ status]) ++ "\n")) none

/-- The status the registry holds for an extension: what follows the first blank of
its line. -/
def hostStatus (k : Kitchen) (name : String) (t : FileTree) : Option String :=
  (fileLines t k.registryPath).findSome? fun l =>
    match l.splitOn " " with
    | key :: rest@(_ :: _) => if key == name then some (" ".intercalate rest) else none
    | _ => none

/-- The arguments of every call of the host program, in order. -/
def hostCalls (k : Kitchen) (t : FileTree) : List String := fileLines t (Path.join k.stateDir "calls.log")

/-- Whether the seed marker of a linked extension exists. -/
def markerExists (k : Kitchen) (name : String) (t : FileTree) : Bool :=
  t.isFile [] (Path.join (Path.join k.extensionsRoot name) ".civicrm-seeded")

/-- How many lines of a log name an extension. -/
def runsIn (t : FileTree) (log name : String) : Nat :=
  ((fileLines t log).filter fun l => Text.trim l == name).length

/-- How many times the counting seed script of an extension ran. -/
def seedRuns (k : Kitchen) (name : String) (t : FileTree) : Nat := runsIn t k.seedLog name

end Kitchen

end Provisioning.Sandbox
