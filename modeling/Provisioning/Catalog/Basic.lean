import Provisioning.Machine
import Provisioning.Manifest
import Provisioning.Name
import Provisioning.Catalog.Info
import Provisioning.Graph.Basic
/-!
Extensions and the catalog of those found on disk.

An extension is a directory holding an `info.xml` or a manifest
(`civikitchen.json`), or both. Its name is the `key` that `info.xml` gives,
or else the directory's own name (that of the directory a path such as `.`
leads to); its short key is the `file` that `info.xml` gives, or else the
last dot-separated segment of the name.

The catalog of a directory holds the extensions directly inside it, keyed
by name. Hidden entries are passed over, the others are looked at in
code-point order, entries that are no extension or cannot be identified are
skipped, and of two extensions of one name the first one stays. A
directory that does not exist gives an empty catalog.
-/

namespace Provisioning

/-- The name of the metadata file an extension tool writes. -/
def infoFileName : String := "info.xml"

namespace Manifest

/-- Read the manifest file at a path; a missing file is an error of its own. -/
def fromPath (m : Machine) (path : String) : Except Error Manifest := do
  match ← m.readTextIfExists path with
  | none => throw (.manifestNotFound path)
  | some content => parse content path

/-- The manifest of an extension directory and how it was obtained: a missing
file gives the empty manifest, and so does one that cannot be read, with the
reason kept. -/
def load (m : Machine) (dir : String) : Manifest × ManifestStatus :=
  match fromPath m (Path.join dir fileName) with
  | .ok man => (man, .loaded)
  | .error (.manifestNotFound _) => ({}, .absent)
  | .error e => ({}, .invalid e.message)

/-- The manifest of an extension directory, the empty one when it cannot be had. -/
def loadOrDefault (m : Machine) (dir : String) : Manifest := (load m dir).1

end Manifest

/-- The name of the directory a path names, or, for paths such as `.`, of the
directory it leads to. -/
def dirName? (m : Machine) (dir : String) : Option String :=
  match Path.fileName? dir with
  | some n => some n
  | none =>
    match m.canonical dir with
    | .ok p => Path.fileName? p
    | .error _ => none

/-- The name and short key of the extension in a directory. -/
def identify (m : Machine) (dir : String) : Except Error (String × String) := do
  let info ← m.readTextIfExists (Path.join dir infoFileName)
  let name ← match info.bind Info.key? with
    | some n => pure n
    | none =>
      match dirName? m dir with
      | some n => pure n
      | none => throw (.invalidName dir "cannot derive an extension name from this path")
  Name.validate name
  pure (name, (info.bind Info.file?).getD (Name.shortKey name))

/-- Whether a path is a directory with an `info.xml` or a manifest file. -/
def isExtensionDir (m : Machine) (dir : String) : Bool :=
  m.isDir dir && (m.isFile (Path.join dir infoFileName) || m.isFile (Path.join dir Manifest.fileName))

/-- An extension found on disk, with its manifest. -/
structure Extension where
  /-- The full reverse-domain name, such as `org.project60.sepa`. -/
  name : String
  /-- The short key, used in file and script names. -/
  key : String
  /-- The directory holding the extension. -/
  path : String
  manifest : Manifest
  manifestStatus : ManifestStatus
  deriving Inhabited

namespace Extension

/-- Identify the extension in a directory and read its manifest. -/
def ofDir (m : Machine) (dir : String) : Except Error Extension := do
  let (name, key) ← identify m dir
  let (manifest, manifestStatus) := Manifest.load m dir
  pure { name, key, path := dir, manifest, manifestStatus }

/-- The declared dependencies, in declaration order. -/
def dependencies (e : Extension) : List String := e.manifest.dependencies

end Extension

/-- Extensions found on disk, keyed by name in code-point order. -/
structure Catalog where
  entries : List (String × Extension) := []
  deriving Inhabited

namespace Catalog

/-- Add an extension unless one of its name is there already. -/
def insert (c : Catalog) (e : Extension) : Catalog :=
  if c.entries.any (·.1 == e.name) then c
  else ⟨Text.sortByKey (c.entries ++ [(e.name, e)])⟩

/-- The extension of a name. -/
def get? (c : Catalog) (name : String) : Option Extension := c.entries.lookup name

/-- Whether an extension of a name is in the catalog. -/
def contains (c : Catalog) (name : String) : Bool := c.entries.any (·.1 == name)

/-- The names, in code-point order. -/
def names (c : Catalog) : List String := c.entries.map (·.1)

/-- The extensions, in name order. -/
def extensions (c : Catalog) : List Extension := c.entries.map (·.2)

/-- The number of extensions. -/
def length (c : Catalog) : Nat := c.entries.length

/-- Whether the catalog is empty. -/
def isEmpty (c : Catalog) : Bool := c.entries.isEmpty

/-- Add the extensions directly inside a directory. -/
def scan (m : Machine) (c : Catalog) (dir : String) : Except Error Catalog :=
  if !m.isDir dir then .ok c
  else
    match m.readDir dir with
    | .error e => .error (Machine.fsError dir e)
    | .ok names =>
      let children := (names.filter fun n => !n.startsWith ".").map (Path.join dir)
      .ok (children.foldl (fun c child =>
        if isExtensionDir m child then
          match Extension.ofDir m child with
          | .ok e => c.insert e
          | .error _ => c
        else c) c)

/-- The extensions directly inside a directory. -/
def discover (m : Machine) (dir : String) : Except Error Catalog := scan m {} dir

/-- The extensions directly inside several directories; of two of one name, the
one found first stays. -/
def discoverAll (m : Machine) (dirs : List String) : Except Error Catalog :=
  dirs.foldlM (scan m) {}

/-- The dependency graph of the catalog's extensions. -/
def graph (c : Catalog) : Graph :=
  Graph.ofEntries (c.extensions.map fun e => (e.name, e.dependencies))

theorem insert_keeps (c : Catalog) (e : Extension) (h : c.contains e.name = true) : c.insert e = c := by
  simp only [contains] at h
  simp [insert, h]

end Catalog

end Provisioning
