import Provisioning.Catalog.Basic
import Provisioning.Link.Strategy
/-!
Making extension source trees visible under the extensions root.

The destination of an extension is the directory of its name under the
extensions root. It is made a symbolic link to the source tree, or a copy of
it; a copy holds a `.civikitchen-source` file with the path of its source,
so that a later run can bring it up to date or remove it without touching
extensions put there by other means.

Linking looks at what is at the destination first:

* nothing: a link or copy is made (`auto` makes a link, and copies only when
  the link cannot be made);
* a link or a directory that leads to the source itself: it is already linked;
* a dangling link: it is replaced;
* a link to another existing tree: refused;
* a copy of this source: it is copied over again;
* a copy of another source, or anything else: refused.
-/

namespace Provisioning

/-- The name of the file that records the source of a copy. -/
def copySourceFileName : String := ".civikitchen-source"

/-- An extension made visible under the extensions root. -/
structure LinkedExtension where
  name : String
  key : String
  /-- The source tree, as an absolute path with every link followed. -/
  source : String
  destination : String
  method : LinkMethod
  outcome : LinkOutcome

/-- What is at a destination before linking. -/
inductive Occupant where
  | nothing
  | symlink (targetExists : Bool)
  /-- A directory copied from the recorded source. -/
  | copy (recorded : String)
  | directory
  | file

/-- Whether two paths have the same parts, as paths compare. -/
def samePath (a b : String) : Bool :=
  Path.isAbsolute a == Path.isAbsolute b && Path.parts a == Path.parts b

/-- Links source trees into an extensions root. -/
structure Linker where
  root : String
  strategy : LinkStrategy

namespace Linker

/-- Where an extension lives once linked. -/
def destination (l : Linker) (name : String) : String := Path.join l.root name

/-- Whether an extension is present under the extensions root; a dangling link does not count. -/
def isLinked (l : Linker) (m : Machine) (name : String) : Bool :=
  Name.isValid name && m.isDir (l.destination name)

/-- What is at a destination. -/
def occupant (m : Machine) (dest : String) : Except Error Occupant :=
  match m.files.lstat m.cwd dest with
  | .error .notFound => .ok .nothing
  | .error e => .error (Machine.fsError dest e)
  | .ok (.link _) => .ok (.symlink (m.files.exists_ m.cwd dest))
  | .ok (.file ..) => .ok .file
  | .ok .dir => do
    match ← m.readTextIfExists (Path.join dest copySourceFileName) with
    | some text => pure (.copy (Text.trim text))
    | none => pure .directory

/-- Copy the entries of the directory `src` into `dst`, following links, in
code-point order. `ancestors` are the locations of the directories walked
through, a link back to one of which is a loop; `fail` makes an error of a
message. -/
def copyEntries (fail : String → Error) : Nat → List (List String × String) → String → String → Act Unit
  | 0, _, _, _ => pure ()
  | fuel + 1, ancestors, src, dst => do
    let m ← get
    let names := (m.readDir src).toOption.getD []
    for name in names do
      let path := Path.join src name
      let target := Path.join dst name
      let m ← get
      match m.files.stat m.cwd path with
      | .error e => throw (fail ("IO error for operation on " ++ path ++ ": " ++ e.message))
      | .ok .dir =>
        let loc := (m.files.canonicalize m.cwd path).toOption.getD []
        let isLink := match m.files.lstat m.cwd path with
          | .ok (.link _) => true
          | _ => false
        if isLink then
          match ancestors.reverse.find? (·.1 == loc) with
          | some (_, shown) =>
            throw (fail ("File system loop found: " ++ path ++ " points to an ancestor " ++ shown))
          | none => pure ()
        Act.change (fun e => fail (target ++ ": " ++ e.message)) fun t cwd => t.mkdirAll cwd target
        copyEntries fail fuel (ancestors ++ [(loc, path)]) path target
      | .ok _ =>
        Act.change (fun e => fail (target ++ ": " ++ e.message)) fun t cwd => t.copyFile cwd path target

/-- Copy a source tree over a destination, replacing files found in both, and
record the source in the copy. A destination that leads into the source is refused. -/
def copyTree (fail : String → Error) (source dest : String) : Act Unit := do
  let m ← get
  let loc ← match m.files.canonicalize m.cwd source with
    | .ok loc => pure loc
    | .error e => throw (fail (source ++ ": " ++ e.message))
  let src := locationText loc
  match m.files.canonicalize m.cwd dest with
  | .ok resolved =>
    if loc.isPrefixOf resolved then
      throw (fail (dest ++ " resolves into the source tree " ++ src ++ "; refusing to copy over it"))
  | .error _ => pure ()
  Act.change (fun e => fail (dest ++ ": " ++ e.message)) fun t cwd => t.mkdirAll cwd dest
  copyEntries fail (m.files.entries.length + 1) [(loc, src)] src dest
  tryCatch (Act.writeAtomic (Path.join dest copySourceFileName) (src ++ "\n")) fun e => throw (fail e.message)

/-- Make a new link or copy at an empty destination. -/
def create (l : Linker) (name source dest : String) : Act LinkMethod := do
  let fail := Error.link name
  match l.strategy with
  | .copy =>
    copyTree fail source dest
    pure .copy
  | .symlink =>
    Act.change (fun e => fail ("cannot create symlink: " ++ e.message)) fun t cwd => t.symlink cwd source dest
    pure .symlink
  | .auto =>
    match ← Act.try_ fun t cwd => t.symlink cwd source dest with
    | .ok () => pure .symlink
    | .error _ =>
      copyTree fail source dest
      pure .copy

/-- Bring the destination in line with the source. -/
def place (l : Linker) (name key source dest : String) : Act LinkedExtension := do
  let linked (method : LinkMethod) (outcome : LinkOutcome) : LinkedExtension :=
    { name, key, source, destination := dest, method, outcome }
  let m ← get
  let occ ← Act.read fun m => occupant m dest
  let sameTree := match m.canonical dest with
    | .ok d => d == source
    | .error _ => false
  match occ with
  | .nothing => return linked (← l.create name source dest) .created
  | .symlink targetExists =>
    if sameTree then return linked .symlink .alreadyLinked
    if targetExists then throw (.link name (dest ++ " is a symlink to a different source"))
    Act.change (fun e => .link name e.message) fun t cwd => t.unlink cwd dest
    return linked (← l.create name source dest) .created
  | .directory =>
    if sameTree then return linked .inPlace .alreadyLinked
    throw (.link name (dest ++ " already exists and was not linked by civikitchen"))
  | .copy recorded =>
    if sameTree then return linked .inPlace .alreadyLinked
    if samePath recorded source then
      copyTree (Error.link name) source dest
      return linked .copy .resynced
    throw (.link name (dest ++ " is a copy of " ++ recorded ++ ", not of this source"))
  | .file => throw (.link name (dest ++ " already exists and was not linked by civikitchen"))

/-- Link the extension whose source tree is at `source`. Linking the same source
again leaves the same tree. -/
def link (l : Linker) (source : String) : Act LinkedExtension := do
  let m ← get
  if !m.isDir source then throw (.link source "source directory does not exist")
  let (name, key) ← Act.read fun m => identify m source
  let canonicalSource ← match m.canonical source with
    | .ok p => pure p
    | .error e => throw (.link name e.message)
  Act.change (fun e => .link name ("cannot create extensions root " ++ l.root ++ ": " ++ e.message))
    fun t cwd => t.mkdirAll cwd l.root
  l.place name key canonicalSource (l.destination name)

/-- Link several source trees; the results are in the order of the sources. -/
def linkAll (l : Linker) (sources : List String) : Act (List (Except Error LinkedExtension)) :=
  sources.mapM fun source => tryCatch (.ok <$> l.link source) fun e => pure (.error e)

/-- Remove the link or copy of an extension, telling whether there was one. -/
def unlink (l : Linker) (name : String) : Act Bool := do
  Act.read fun _ => Name.validate name
  let dest := l.destination name
  match ← Act.read fun m => occupant m dest with
  | .nothing => pure false
  | .symlink _ =>
    Act.change (fun e => .link name e.message) fun t cwd => t.unlink cwd dest
    pure true
  | .copy _ =>
    Act.change (fun e => .link name e.message) fun t cwd => t.removeAll cwd dest
    pure true
  | .directory | .file =>
    throw (.link name (dest ++ " was not linked by civikitchen; refusing to remove it"))

end Linker

end Provisioning
