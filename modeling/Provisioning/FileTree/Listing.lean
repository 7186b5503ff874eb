import Provisioning.FileTree.Basic
/-!
Whole-tree edits and listings.

Besides the single system calls of the file tree, setting up and looking at
a tree needs a few composite operations: writing a file with its missing
parent directories, making a link in a directory that may not exist yet,
removing whatever is at a path, and listing everything below a directory in
the order of a depth-first walk that visits names in code-point order.
-/

namespace Provisioning

namespace FileTree

/-- Write a file, creating its missing parent directories; `mode` sets its
permission bits when given. -/
def writeWithParents (t : FileTree) (cwd : List String) (p : String) (data : List UInt8)
    (mode : Option Nat) : Except OsError FileTree := do
  let t ← match Path.parent? p with
    | some par => t.mkdirAll cwd par
    | none => pure t
  let t ← t.writeBytes cwd p data
  match mode with
  | some bits => t.chmod cwd p bits
  | none => pure t

/-- Make a link, creating the missing parent directories of its path. -/
def symlinkWithParents (t : FileTree) (cwd : List String) (target p : String) : Except OsError FileTree := do
  let t ← match Path.parent? p with
    | some par => t.mkdirAll cwd par
    | none => pure t
  t.symlink cwd target p

/-- Remove whatever is at a path: a directory with all it holds, or a file or link. -/
def removePath (t : FileTree) (cwd : List String) (p : String) : Except OsError FileTree :=
  match t.lstat cwd p with
  | .ok .dir => t.removeAll cwd p
  | _ => t.unlink cwd p

/-- Whether one list of names comes before another in a depth-first walk:
name by name, a list before the lists it starts. -/
def partsLe : List String → List String → Bool
  | [], _ => true
  | _ :: _, [] => false
  | a :: as, b :: bs => if a = b then partsLe as bs else decide (a < b)

/-- Everything below the directory a path leads to, each with its parts
relative to it, in walking order; a path to anything else gives that entry
alone with no parts, and a path to nothing gives nothing. -/
def listing (t : FileTree) (cwd : List String) (p : String) : List (List String × Node) :=
  match t.lstat cwd p with
  | .error _ => []
  | .ok .dir =>
    match t.locate cwd p true with
    | .ok loc => (t.below loc).mergeSort fun a b => partsLe a.1 b.1
    | .error _ => []
  | .ok n => [([], n)]

theorem partsLe_nil (xs : List String) : partsLe [] xs = true := by
  cases xs <;> rfl

end FileTree

end Provisioning
