import Provisioning.Text.Layout
/-!
Paths as they are written.

A path is kept as the text it was written with, and shown that way in
messages: joining `ext` and `org.example.base` gives `ext/org.example.base`,
and a relative path stays relative. Its parts are the texts between
slashes, where empty parts and `.` (except at the very start) do not count.

* Joining an absolute path replaces the base; otherwise one slash goes
  between the two, unless the base already ends with one.
* The file name is the last part, unless that is `..` or there is none.
* The parent drops the last part; the parent of a single relative part is
  the empty path, and the root has none.
* The extension is what follows the last dot of the file name, when that
  dot is not its first character.
-/

namespace Provisioning.Path

/-- Whether the path starts at the root. -/
def isAbsolute (p : String) : Bool := p.startsWith "/"

/-- The texts between the slashes of a path, empty ones included: `/a//b` gives `""`, `a`,
`""` and `b`. -/
def split (p : String) : List String := (p.toList.splitOn '/').map String.ofList

/-- The parts of a path between slashes; empty parts and `.` are dropped, except a leading
`.` of a relative path. -/
def parts (p : String) : List String :=
  let raw := split p
  let kept := raw.filter fun s => s ≠ "" && s ≠ "."
  match raw with
  | "." :: _ => "." :: kept
  | _ => kept

/-- Join a path onto a base. -/
def join (base p : String) : String :=
  if isAbsolute p then p
  else if base.isEmpty then p
  else if base.endsWith "/" then base ++ p
  else base ++ "/" ++ p

/-- The last part of a path, if it is a name. -/
def fileName? (p : String) : Option String :=
  match (parts p).getLast? with
  | some ".." => none
  | some "." => none
  | some n => some n
  | none => none

/-- The path without its last part; `none` for the root and the empty path. -/
def parent? (p : String) : Option String :=
  let ps := parts p
  match ps.getLast? with
  | none => none
  | some _ =>
    let front := ps.dropLast
    if isAbsolute p then some ("/" ++ String.intercalate "/" front)
    else some (String.intercalate "/" front)

/-- The path with its last part replaced by `name`. -/
def withFileName (p name : String) : String :=
  match parent? p with
  | some q => join q name
  | none => join p name

/-- What follows the last dot of the file name, unless the dot starts the name. -/
def extension? (p : String) : Option String :=
  match fileName? p with
  | none => none
  | some name =>
    let cs := name.toList
    match cs.reverse.idxOf? '.' with
    | none => none
    | some k =>
      let dot := cs.length - 1 - k
      if dot = 0 then none else some (String.ofList (cs.drop (dot + 1)))

/-- Whether a part is `..`, which climbs to the parent. -/
def climbs (p : String) : Bool := (parts p).contains ".."

example : join "ext" "org.example.base" = "ext/org.example.base" := by decide +kernel

theorem join_empty (p : String) (h : isAbsolute p = false) : join "" p = p := by
  simp [join, h]

end Provisioning.Path
