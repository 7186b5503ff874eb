import Provisioning.Json.Reader
import Provisioning.Json.Value
import Provisioning.Error
import Provisioning.Text.Blank
import Provisioning.FileTree.Path
/-!
Extension manifests.

An extension may carry a manifest, `civikitchen.json`, that declares a seed
script and the extensions it depends on:

    {"seeding": {"enabled": true, "script": "scripts/seed.sh", "runOnce": true},
     "dependencies": ["org.example.base"]}

Both parts may be left out. When `seeding` is given, all three of its
fields are required. A manifest is accepted when the seed script is a
non-blank path that is relative and never climbs out of the extension with
`..` (checked even when seeding is disabled), and no dependency name is
blank. The dependency list is an ordered set: a repeated name keeps its
first place.

Written back, a manifest leaves out `seeding` when it has none and
`dependencies` when the list is empty.
-/

namespace Provisioning

/-- A seed-script directive. -/
structure Seeding where
  /-- When false the script is never run. -/
  enabled : Bool
  /-- The script's path, relative to the extension's directory. -/
  script : String
  /-- When true a marker keeps the script from running again. -/
  runOnce : Bool
  deriving DecidableEq, Repr, Inhabited

/-- The manifest of an extension. -/
structure Manifest where
  seeding : Option Seeding := none
  dependencies : List String := []
  deriving DecidableEq, Repr, Inhabited

/-- How a manifest was obtained from an extension's directory. -/
inductive ManifestStatus where
  /-- Read from the manifest file. -/
  | loaded
  /-- There is no manifest file; the empty manifest stands in. -/
  | absent
  /-- The file was refused for the reason given; the empty manifest stands in. -/
  | invalid (reason : String)
  deriving DecidableEq, Repr, Inhabited

namespace Manifest

/-- The manifest's file name inside an extension's directory. -/
def fileName : String := "civikitchen.json"

/-- The shape of a seed-script directive. -/
def seedingShape : Shape :=
  .record "Seeding" [("enabled", .flag, false), ("script", .text "a string", false),
    ("runOnce", .flag, false)]

/-- The shape of a manifest. -/
def shape : Shape :=
  .record "ExtensionManifest" [("seeding", .maybe seedingShape, true),
    ("dependencies", .list (.text "a string"), true)]

/-- A seed-script directive from the datum read against `seedingShape`. -/
def seedingOfDatum (d : Datum) : Option Seeding :=
  match d with
  | .some s =>
    some ⟨((s.field? "enabled").bind Datum.flag?).getD false,
      ((s.field? "script").bind Datum.text?).getD "",
      ((s.field? "runOnce").bind Datum.flag?).getD false⟩
  | _ => none

/-- A manifest from the datum read against `shape`; absent parts are empty. -/
def ofDatum (d : Datum) : Manifest where
  seeding := (d.field? "seeding").bind seedingOfDatum
  dependencies := ((d.field? "dependencies").bind Datum.texts?).getD []

/-- The parts of a path separated by slashes. -/
def pathParts (p : String) : List String := Path.split p

/-- Why a manifest is refused, if it is. -/
def problem? (m : Manifest) : Option String :=
  let scriptProblem : Option String :=
    match m.seeding with
    | none => none
    | some s =>
      if Text.isBlankText s.script then some "seeding.script must not be empty"
      else if s.script.startsWith "/" then
        some ("seeding.script must be relative to the extension root, got " ++ Text.quoted s.script)
      else if (pathParts s.script).contains ".." then
        some ("seeding.script must stay inside the extension, got " ++ Text.quoted s.script)
      else none
  match scriptProblem with
  | some p => some p
  | none =>
    if m.dependencies.any Text.isBlankText then some "dependencies must not contain empty names"
    else none

/-- The elements of a list not yet in `seen`, each kept at its first place. -/
def dedupAfter : List String → List String → List String
  | [], _ => []
  | x :: rest, seen => if seen.contains x then dedupAfter rest seen else x :: dedupAfter rest (x :: seen)

/-- A list without its repeated elements, each kept at its first place. -/
def dedupFirst (xs : List String) : List String := dedupAfter xs []

/-- Parse a manifest read from `path`: read it against the shape, check it, and drop
repeated dependencies. -/
def parse (content : String) (path : String) : Except Error Manifest :=
  match Json.readDocument shape content with
  | .error e => .error (.manifestParse path e.text)
  | .ok d =>
    let m := ofDatum d
    match problem? m with
    | some reason => .error (.manifestParse path reason)
    | none => .ok { m with dependencies := dedupFirst m.dependencies }

/-- Parse manifest text as if read from a file of the usual name. -/
def ofText (content : String) : Except Error Manifest := parse content fileName

/-- Whether the manifest declares a seed script that is enabled. -/
def seedingEnabled (m : Manifest) : Bool :=
  match m.seeding with
  | some s => s.enabled
  | none => false

/-- The written form of a seed-script directive. -/
def seedingJson (s : Seeding) : Json :=
  .obj [("enabled", .bool s.enabled), ("script", .str s.script), ("runOnce", .bool s.runOnce)]

/-- The written form of a manifest: absent seeding and an empty dependency list are left out. -/
def toJson (m : Manifest) : Json :=
  .obj ((match m.seeding with
      | some s => [("seeding", seedingJson s)]
      | none => []) ++
    (if m.dependencies.isEmpty then [] else [("dependencies", Json.strs m.dependencies)]))

theorem dedupFirst_nil : dedupFirst [] = [] := rfl

end Manifest

end Provisioning
