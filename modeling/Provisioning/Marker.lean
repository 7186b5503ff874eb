import Provisioning.Catalog.Basic
/-!
Seed markers.

A marker records that an extension's one-shot seed script ran to its end;
only its presence matters. Markers are kept either in memory or as a file
(named `.civicrm-seeded` unless configured otherwise) in each extension's
directory under the extensions root. That directory is normally named after
the extension; an extension placed there by other means may sit in a
directory named otherwise, and is then found through its `info.xml`.

The file store checks names as extension names before using them; a marker
can only be written for an extension whose directory exists. A marker file
holds the time it was written.
-/

namespace Provisioning

/-- The default name of a marker file. -/
def markerFileName : String := ".civicrm-seeded"

namespace MarkerStore

/-- The directory under `root` holding the extension `name`: the one named after
it, or else the first whose `info.xml` names it. -/
def extensionDir? (m : Machine) (root name : String) : Option String :=
  let direct := Path.join root name
  if m.isDir direct then some direct
  else
    match m.readDir root with
    | .error _ => none
    | .ok entries =>
      (entries.map (Path.join root)).find? fun dir =>
        m.isDir dir && match identify m dir with
          | .ok (found, _) => found == name
          | .error _ => false

/-- The path of the marker file of `name` under `root`. -/
def markerPath (m : Machine) (root fileName name : String) : String :=
  Path.join ((extensionDir? m root name).getD (Path.join root name)) fileName

/-- Whether the seed of an extension has completed. -/
def exists_ (name : String) : Act Bool := do
  let m ← get
  match m.markers with
  | .memory names => pure (names.contains name)
  | .files root fileName =>
    Act.read fun _ => Name.validate name
    pure (m.isFile (markerPath m root fileName name))

/-- Record that the seed of an extension completed. -/
def set (name : String) : Act Unit := do
  let m ← get
  match m.markers with
  | .memory names => modify fun m => { m with markers := .memory (Text.sortDedup (name :: names)) }
  | .files root fileName =>
    Act.read fun _ => Name.validate name
    match extensionDir? m root name with
    | none => throw (.unknownExtension name)
    | some dir => Act.writeAtomic (Path.join dir fileName) (m.clock ++ "\n")

/-- Remove the marker of an extension, telling whether there was one. -/
def clear (name : String) : Act Bool := do
  let m ← get
  match m.markers with
  | .memory names =>
    modify fun m => { m with markers := .memory (names.filter (· != name)) }
    pure (names.contains name)
  | .files root fileName =>
    Act.read fun _ => Name.validate name
    Act.removeFileIfExists (markerPath m root fileName name)

/-- The names of the extensions with a marker, in code-point order. -/
def list : Act (List String) := do
  let m ← get
  match m.markers with
  | .memory names => pure names
  | .files root fileName =>
    if !m.isDir root then return []
    match m.readDir root with
    | .error e => throw (Machine.fsError root e)
    | .ok entries =>
      let dirs := (entries.map (Path.join root)).filter fun dir => m.isFile (Path.join dir fileName)
      pure (Text.sortDedup (dirs.filterMap fun dir => (identify m dir).toOption.map (·.1)))

end MarkerStore

end Provisioning
