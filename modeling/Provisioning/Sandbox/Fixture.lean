import Provisioning.Sandbox.Kitchen
import Provisioning.Json.Value
/-!
Extension source trees for a kitchen.

A fixture describes one extension directory, `<parent>/<name>`, and writes
it into a file tree:

* `info.xml`, when an info file is asked for, or when there is no
  manifest (then the info file is the last dot-separated part of the
  name), so that the directory still counts as an extension;
* `scripts/seed.sh`, a `sh` script with the given body, when seeding is
  declared;
* `civikitchen.json`, unless left out: the given text, or the
  dependencies and, when a seed script is given or seeding is disabled,
  the seeding entry (`enabled`, `runOnce`, `script = scripts/seed.sh`),
  written as indented JSON with its keys in order.

A counting seed script appends the extension's name to a log, so a test
can count how often it ran.
-/

namespace Provisioning.Sandbox

/-- An extension directory under construction. -/
structure Fixture where
  dir : String
  name : String
  dependencies : List String := []
  seedBody : Option String := none
  seedingEnabled : Bool := true
  runOnce : Bool := true
  infoFile : Option String := none
  rawManifest : Option String := none
  noManifest : Bool := false

namespace Fixture

/-- An extension named `name` under `parent`. -/
def new (parent name : String) : Fixture := { dir := Path.join parent name, name }

/-- Depend on another extension. -/
def dependsOn (f : Fixture) (dep : String) : Fixture := { f with dependencies := f.dependencies ++ [dep] }

/-- Declare seeding with a script of this body. -/
def seedScript (f : Fixture) (body : String) : Fixture := { f with seedBody := some body }

/-- A seed script that appends the extension's name to `log` on every run. -/
def countingSeed (f : Fixture) (log : String) : Fixture :=
  f.seedScript ("echo \"$CIVIKITCHEN_EXTENSION\" >> '" ++ log ++ "'")

/-- The last dot-separated part of a name. -/
def lastPart (name : String) : String := ((name.splitOn ".").getLast?).getD name

/-- The info file written, if any. -/
def infoFileName? (f : Fixture) : Option String :=
  match f.infoFile with
  | some file => some file
  | none => if f.noManifest then some (lastPart f.name) else none

/-- The text of `info.xml` naming a file. -/
def infoXml (f : Fixture) (file : String) : String :=
  "<?xml version=\"1.0\"?>\n<extension key=\"" ++ f.name ++ "\" type=\"module\">\n  <file>" ++ file ++
    "</file>\n  <name>" ++ f.name ++ "</name>\n</extension>\n"

/-- The text of the manifest. -/
def manifestText (f : Fixture) : String :=
  match f.rawManifest with
  | some raw => raw
  | none =>
    let seeding : List (String × Json) :=
      if f.seedBody.isSome || !f.seedingEnabled then
        [("seeding", .obj [("enabled", .bool f.seedingEnabled), ("runOnce", .bool f.runOnce),
          ("script", .str "scripts/seed.sh")])]
      else []
    Json.pretty (.obj ([("dependencies", Json.strs f.dependencies)] ++ seeding))

/-- Write the extension into a file tree. -/
def create (f : Fixture) (t : FileTree) : Except OsError FileTree := do
  let t ← t.mkdirAll [] f.dir
  let t ← match f.infoFileName? with
    | some file => t.writeWithParents [] (Path.join f.dir "info.xml") (bytesOf (f.infoXml file)) none
    | none => pure t
  let t ← match f.seedBody with
    | some body =>
      t.writeWithParents [] (Path.join f.dir "scripts/seed.sh") (bytesOf ("#!/bin/sh\n" ++ body ++ "\n")) none
    | none => pure t
  if f.noManifest then pure t
  else t.writeWithParents [] (Path.join f.dir "civikitchen.json") (bytesOf f.manifestText) none

end Fixture

namespace Kitchen

/-- An extension under the kitchen's sources. -/
def extension (k : Kitchen) (name : String) : Fixture := Fixture.new k.sourcesDir name

/-- An extension under the kitchen's sources whose seed script is counted in the seed log. -/
def countedExtension (k : Kitchen) (name : String) : Fixture := (k.extension name).countingSeed k.seedLog

end Kitchen

end Provisioning.Sandbox
