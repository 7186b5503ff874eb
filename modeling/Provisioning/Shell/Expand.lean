import Provisioning.Shell.State
import Provisioning.Shell.Pattern
import Provisioning.FileTree.Path
import Provisioning.Text.Sort

/-!
# Fields of an expanded word

Expansion turns a word into fields. Text from the script and quoted text stay
in the field they are in; the value of an unquoted expansion is split at the
separator characters (blank, tab, line end) into several fields; `"$@"` gives
one field per argument. Each character keeps whether it was quoted, because an
unquoted `*`, `?` or `[` then makes the field a pattern that is replaced by the
names of the files it matches, in code-point order, or kept as it is when
nothing matches.
-/

namespace Provisioning.Shell

/-- A field being built: its characters with their quoting, and whether it
exists even when empty (it held quotes). -/
structure Field where
  chars : Array (Char × Bool)
  present : Bool
  deriving Inhabited

/-- The fields of a word being expanded: those finished and the current one. -/
structure Fields where
  done : Array Field
  cur : Field
  deriving Inhabited

namespace Fields

/-- No fields yet. -/
def empty : Fields := ⟨#[], ⟨#[], false⟩⟩

/-- Text that stays in the current field, quoted or not. -/
def addText (fs : Fields) (s : String) (quoted : Bool) : Fields :=
  { fs with cur := ⟨fs.cur.chars ++ (s.toList.map fun c => (c, quoted)).toArray, true⟩ }

/-- Whether a character separates fields. -/
def isSeparator (c : Char) : Bool := c == ' ' || c == '\t' || c == '\n'

/-- The value of an unquoted expansion, split into fields at separators. -/
def addSplit (fs : Fields) (s : String) : Fields :=
  s.toList.foldl (fun fs c =>
    if isSeparator c then
      if fs.cur.present then ⟨fs.done.push fs.cur, ⟨#[], false⟩⟩ else fs
    else { fs with cur := ⟨fs.cur.chars.push (c, false), true⟩ }) fs

/-- Words that each make a field of their own, the first joining the current
field and the last staying open, as `"$@"` gives them. -/
def addWords (fs : Fields) (ws : List String) : Fields :=
  match ws with
  | [] => fs
  | w :: rest =>
    rest.foldl (fun fs w => ⟨fs.done.push fs.cur, ⟨(w.toList.map fun c => (c, true)).toArray, true⟩⟩)
      (fs.addText w true)

/-- The finished fields. -/
def finish (fs : Fields) : List Field :=
  (if fs.cur.present then fs.done.push fs.cur else fs.done).toList

end Fields

/-- The text of a field. -/
def Field.text (f : Field) : String := String.ofList (f.chars.toList.map (·.1))

/-- The parts of a pattern between slashes. -/
def splitSlashes (cs : List (Char × Bool)) : List (List (Char × Bool)) :=
  cs.foldr (fun (c, q) acc =>
    if c == '/' then [] :: acc
    else match acc with
      | p :: rest => ((c, q) :: p) :: rest
      | [] => [[(c, q)]]) [[]]

/-- A path with a name added after a slash. -/
def joinName (base name : String) : String :=
  if base.isEmpty then name else if base.endsWith "/" then base ++ name else base ++ "/" ++ name

/-- Whether a name can match a pattern part: names that start with a dot match
only a part that starts with a dot itself. -/
def nameMatches (part : List (Char × Bool)) (name : String) : Bool :=
  (!name.startsWith "." || (part.head?.map (·.1)) == some '.') &&
    Glob.matches (Glob.compile part) name.toList

/-- The paths a pattern matches in the tree, in code-point order; empty when
none does. -/
def globPaths (files : FileTree) (cwd : List String) (pattern : List (Char × Bool)) : List String :=
  let parts := splitSlashes pattern
  let (start, parts) := match parts with
    | [] :: rest => ("/", rest)
    | ps => ("", ps)
  let trailing := match parts.getLast? with
    | some [] => true
    | _ => false
  let parts := if trailing then parts.dropLast else parts
  let found := parts.foldl (fun cands part =>
    if part.isEmpty then cands
    else if hasWildcard part then
      cands.flatMap fun base =>
        let dir := if base.isEmpty then "." else base
        ((files.readDir cwd dir).toOption.getD []).filter (nameMatches part) |>.map (joinName base)
    else
      let name := String.ofList (part.map (·.1))
      cands.map fun base => joinName base name) [start]
  let found := found.filter fun p =>
    if trailing then files.isDir cwd p
    else match files.lstat cwd p with
      | .ok _ => true
      | .error _ => false
  Text.sortStrings (if trailing then found.map (· ++ "/") else found)

/-- The words a field stands for: its text, or the files it matches as a pattern. -/
def fieldWords (files : FileTree) (cwd : List String) (f : Field) : List String :=
  if hasWildcard f.chars.toList then
    match globPaths files cwd f.chars.toList with
    | [] => [f.text]
    | ps => ps
  else [f.text]

end Provisioning.Shell
