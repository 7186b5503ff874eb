import Provisioning.FileTree.Path
import Provisioning.Os.Error
import Provisioning.Text.Sort
/-!
A tree of files.

The tree maps locations (the names of the directories leading from the
root, then the entry's own name) to entries: directories, files with their
bytes and permission bits, and symbolic links with the text of their
target. The root is always a directory and is not stored.

Written paths are resolved against a working directory one part at a time,
the way the system does it: `.` stays, `..` goes to the parent of the place
reached so far, a link in the middle of a path is followed (an absolute
target restarts from the root), and the last part is followed only when the
operation asks for it. A part that is missing in the middle, or that is a
file, stops the walk with "not found" or "not a directory". Links that lead
to each other forever are cut off with "too many levels of symbolic links".

The operations on top of resolution answer like the system calls they stand
for: creating something that exists fails with "file exists", reading a
directory as a file fails with "is a directory", and so on.
-/

namespace Provisioning

/-- One entry of a file tree. -/
inductive Node where
  | dir
  | file (data : List UInt8) (mode : Nat)
  | link (target : String)
  deriving DecidableEq, Repr, Inhabited

/-- Every entry of a tree by its location; the root directory is implicit. -/
structure FileTree where
  entries : List (List String × Node) := []
  deriving Repr, Inhabited

namespace Node

/-- Whether the entry is a directory. -/
def isDir : Node → Bool
  | .dir => true
  | _ => false

/-- Whether the entry is a regular file. -/
def isFile : Node → Bool
  | .file .. => true
  | _ => false

/-- Whether the entry is a symbolic link. -/
def isLink : Node → Bool
  | .link _ => true
  | _ => false

/-- Whether some execute bit of a file is set. -/
def isExecutable : Node → Bool
  | .file _ mode => mode / 64 % 2 = 1 || mode / 8 % 2 = 1 || mode % 2 = 1
  | _ => false

end Node

/-- Permission bits of a new file. -/
def defaultFileMode : Nat := 0o644

/-- UTF-8 bytes of a text. -/
def bytesOf (s : String) : List UInt8 := s.toUTF8.toList

/-- The text of UTF-8 bytes, if they are valid UTF-8. -/
def textOf? (bytes : List UInt8) : Option String := String.fromUTF8? ⟨bytes.toArray⟩

/-- The absolute text of a location. -/
def locationText (loc : List String) : String := "/" ++ String.intercalate "/" loc

namespace FileTree

/-- The entry at a location; the root is a directory. -/
def node? (t : FileTree) (loc : List String) : Option Node :=
  if loc.isEmpty then some .dir else t.entries.lookup loc

/-- Put an entry at a location, replacing what was there. -/
def put (t : FileTree) (loc : List String) (n : Node) : FileTree :=
  if t.entries.any (·.1 == loc) then
    ⟨t.entries.map fun (l, m) => if l == loc then (l, n) else (l, m)⟩
  else ⟨t.entries ++ [(loc, n)]⟩

/-- Remove the entry at a location and everything below it. -/
def erase (t : FileTree) (loc : List String) : FileTree :=
  ⟨t.entries.filter fun (l, _) => !(loc.isPrefixOf l)⟩

/-- The names directly inside a location, in code-point order. -/
def childNames (t : FileTree) (loc : List String) : List String :=
  Text.sortStrings (t.entries.filterMap fun (l, _) =>
    if l.length = loc.length + 1 && loc.isPrefixOf l then l.getLast? else none)

/-- Every entry strictly below a location, with its location relative to it. -/
def below (t : FileTree) (loc : List String) : List (List String × Node) :=
  t.entries.filterMap fun (l, n) =>
    if loc.isPrefixOf l && l.length > loc.length then some (l.drop loc.length, n) else none

/-- The starting location of a written path: the root, or the working directory. -/
def origin (cwd : List String) (p : String) : List String :=
  if Path.isAbsolute p then [] else cwd

/-- Walk parts from a location, following links as described above. `fuel` bounds the
number of steps; running out counts as a loop of links. -/
def walk (t : FileTree) (follow : Bool) : Nat → List String → List String →
    Except OsError (List String)
  | 0, _, _ => .error .tooManyLinks
  | _ + 1, at_, [] => .ok at_
  | fuel + 1, at_, part :: rest =>
    if part.utf8ByteSize > 255 then .error .nameTooLong
    else if part = "." || part = "" then walk t follow fuel at_ rest
    else if part = ".." then walk t follow fuel at_.dropLast rest
    else
      let next := at_ ++ [part]
      match t.node? next with
      | none => if rest.isEmpty then .ok next else .error .notFound
      | some .dir => walk t follow fuel next rest
      | some (.file ..) => if rest.isEmpty then .ok next else .error .notADirectory
      | some (.link target) =>
        if rest.isEmpty && !follow then .ok next
        else
          let base := if Path.isAbsolute target then [] else at_
          walk t follow fuel base (Path.split target ++ rest)

/-- The location a written path leads to. The last part is followed when `follow`, or when
the path ends with a slash; the location need not exist. -/
def locate (t : FileTree) (cwd : List String) (p : String) (follow : Bool) :
    Except OsError (List String) :=
  if p.isEmpty then .error .notFound
  else walk t (follow || p.endsWith "/") 4096 (origin cwd p) (Path.split p)

/-- The entry a path leads to, following a link at its end. -/
def stat (t : FileTree) (cwd : List String) (p : String) : Except OsError Node := do
  let loc ← t.locate cwd p true
  match t.node? loc with
  | some n =>
    if p.endsWith "/" && !n.isDir then throw .notADirectory else pure n
  | none => throw .notFound

/-- The entry a path names, a link at its end not followed. -/
def lstat (t : FileTree) (cwd : List String) (p : String) : Except OsError Node := do
  let loc ← t.locate cwd p false
  match t.node? loc with
  | some n => pure n
  | none => throw .notFound

/-- Whether a path leads to a directory. -/
def isDir (t : FileTree) (cwd : List String) (p : String) : Bool :=
  match t.stat cwd p with
  | .ok n => n.isDir
  | .error _ => false

/-- Whether a path leads to a regular file. -/
def isFile (t : FileTree) (cwd : List String) (p : String) : Bool :=
  match t.stat cwd p with
  | .ok n => n.isFile
  | .error _ => false

/-- Whether a path leads to anything. -/
def exists_ (t : FileTree) (cwd : List String) (p : String) : Bool :=
  match t.stat cwd p with
  | .ok _ => true
  | .error _ => false

/-- The bytes of a file. -/
def readBytes (t : FileTree) (cwd : List String) (p : String) : Except OsError (List UInt8) := do
  match ← t.stat cwd p with
  | .file data _ => pure data
  | _ => throw .isADirectory

/-- The text of a file. -/
def readText (t : FileTree) (cwd : List String) (p : String) : Except OsError String := do
  let data ← t.readBytes cwd p
  match textOf? data with
  | some s => pure s
  | none => throw .notText

/-- The text of a file, or `none` when there is nothing at the path. -/
def readTextIfExists (t : FileTree) (cwd : List String) (p : String) :
    Except OsError (Option String) :=
  match t.readText cwd p with
  | .ok s => .ok (some s)
  | .error .notFound => .ok none
  | .error e => .error e

/-- Write the bytes of a file, creating it or replacing its content; a link at the end is
followed and a missing target created. -/
def writeBytes (t : FileTree) (cwd : List String) (p : String) (data : List UInt8) :
    Except OsError FileTree := do
  let loc ← t.locate cwd p true
  match t.node? loc with
  | some .dir => throw .isADirectory
  | some (.file _ mode) => pure (t.put loc (.file data mode))
  | some (.link _) => throw .tooManyLinks
  | none =>
    if p.endsWith "/" then throw .isADirectory
    else pure (t.put loc (.file data defaultFileMode))

/-- Append bytes to a file, creating it when it is missing. -/
def appendBytes (t : FileTree) (cwd : List String) (p : String) (data : List UInt8) :
    Except OsError FileTree := do
  let loc ← t.locate cwd p true
  match t.node? loc with
  | some .dir => throw .isADirectory
  | some (.file old mode) => pure (t.put loc (.file (old ++ data) mode))
  | some (.link _) => throw .tooManyLinks
  | none => pure (t.put loc (.file data defaultFileMode))

/-- Set the permission bits of a file. -/
def chmod (t : FileTree) (cwd : List String) (p : String) (mode : Nat) : Except OsError FileTree := do
  let loc ← t.locate cwd p true
  match t.node? loc with
  | some (.file data _) => pure (t.put loc (.file data mode))
  | some _ => pure t
  | none => throw .notFound

/-- Create a directory; anything already at the path, even a broken link, is in the way. -/
def mkdir (t : FileTree) (cwd : List String) (p : String) : Except OsError FileTree := do
  let loc ← t.locate cwd p false
  if loc.isEmpty then throw .alreadyExists
  match t.node? loc with
  | some _ => throw .alreadyExists
  | none => pure (t.put loc .dir)

/-- Create a directory and any missing parents; a directory already there is fine. -/
def mkdirAll (t : FileTree) (cwd : List String) (p : String) : Except OsError FileTree :=
  go ((Path.parts p).length + 2) t p
where
  /-- Create `q` in `t`, its parents first when they are missing. -/
  go : Nat → FileTree → String → Except OsError FileTree
    | 0, _, _ => .error .notFound
    | fuel + 1, t, q =>
      if q.isEmpty then .ok t
      else
        match t.mkdir cwd q with
        | .ok t2 => .ok t2
        | .error .notFound =>
          match Path.parent? q with
          | none => .error .notFound
          | some par =>
            match go fuel t par with
            | .error e => .error e
            | .ok t2 =>
              match t2.mkdir cwd q with
              | .ok t3 => .ok t3
              | .error e => if t2.isDir cwd q then .ok t2 else .error e
        | .error e => if t.isDir cwd q then .ok t else .error e

/-- Make a symbolic link at `p` with the given target text. -/
def symlink (t : FileTree) (cwd : List String) (target p : String) : Except OsError FileTree := do
  let loc ← t.locate cwd p false
  if loc.isEmpty then throw .alreadyExists
  match t.node? loc with
  | some _ => throw .alreadyExists
  | none => pure (t.put loc (.link target))

/-- Remove a file or link (a link itself, never its target). -/
def unlink (t : FileTree) (cwd : List String) (p : String) : Except OsError FileTree := do
  let loc ← t.locate cwd p false
  match t.node? loc with
  | none => throw .notFound
  | some .dir => throw .isADirectory
  | some _ => pure (t.erase loc)

/-- Remove an empty directory. -/
def rmdir (t : FileTree) (cwd : List String) (p : String) : Except OsError FileTree := do
  let loc ← t.locate cwd p false
  match t.node? loc with
  | none => throw .notFound
  | some .dir =>
    if loc.isEmpty then throw .invalidArgument
    else if (t.childNames loc).isEmpty then pure (t.erase loc) else throw .directoryNotEmpty
  | some _ => throw .notADirectory

/-- Remove a directory with everything in it; a link at the path is removed itself. -/
def removeAll (t : FileTree) (cwd : List String) (p : String) : Except OsError FileTree := do
  let loc ← t.locate cwd p false
  match t.node? loc with
  | none => throw .notFound
  | some .dir => if loc.isEmpty then throw .invalidArgument else pure (t.erase loc)
  | some (.link _) => pure (t.erase loc)
  | some (.file ..) => throw .notADirectory

/-- Move an entry, with everything below it, to another path, replacing a file there. -/
def rename (t : FileTree) (cwd : List String) (source target : String) : Except OsError FileTree := do
  let src ← t.locate cwd source false
  let dst ← t.locate cwd target false
  let n ← match t.node? src with
    | some n => pure n
    | none => throw .notFound
  if src == dst then return t
  match t.node? dst, n with
  | some .dir, .dir =>
    if (t.childNames dst).isEmpty then pure () else throw .directoryNotEmpty
  | some .dir, _ => throw .isADirectory
  | some _, .dir => throw .notADirectory
  | _, _ => pure ()
  if src.isPrefixOf dst then throw .invalidArgument
  let moved := (t.below src).map fun (rel, m) => (dst ++ rel, m)
  let t := (t.erase dst).erase src
  pure (moved.foldl (fun acc (l, m) => acc.put l m) (t.put dst n))

/-- The names inside a directory, in code-point order. -/
def readDir (t : FileTree) (cwd : List String) (p : String) : Except OsError (List String) := do
  let loc ← t.locate cwd p true
  match t.node? loc with
  | some .dir => pure (t.childNames loc)
  | some _ => throw .notADirectory
  | none => throw .notFound

/-- The absolute location a path leads to, every link followed; it must exist. -/
def canonicalize (t : FileTree) (cwd : List String) (p : String) : Except OsError (List String) := do
  let loc ← t.locate cwd p true
  match t.node? loc with
  | some n => if p.endsWith "/" && !n.isDir then throw .notADirectory else pure loc
  | none => throw .notFound

/-- The target text of a link. -/
def readLink (t : FileTree) (cwd : List String) (p : String) : Except OsError String := do
  match ← t.lstat cwd p with
  | .link target => pure target
  | _ => throw .invalidArgument

/-- Copy the bytes and permission bits of a file to another path. -/
def copyFile (t : FileTree) (cwd : List String) (source target : String) : Except OsError FileTree := do
  match ← t.stat cwd source with
  | .file data mode =>
    let t ← t.writeBytes cwd target data
    t.chmod cwd target mode
  | _ => throw .invalidArgument

theorem node_root (t : FileTree) : t.node? [] = some .dir := by
  simp [node?]

end FileTree

end Provisioning
