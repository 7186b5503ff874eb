import Provisioning.Shell.Utility.Basic
import Provisioning.FileTree.Path

/-!
# Utilities on files and paths

`cat`, `touch`, `mkdir`, `rm`, `rmdir`, `mv`, `cp`, `ln`, `chmod`, `ls`,
`basename`, `dirname`, `readlink` and `realpath`, each over the file tree of its
call. A failing operand is reported on the error descriptor and the others are
still done; the status is then 1.
-/

namespace Provisioning.Shell

/-- Apply a step to each operand in turn; a failing operand adds its message
and makes the status 1. -/
def eachOperand (c : Call) (ops : List String) (step : FileTree → String → Except String FileTree) : Done :=
  ops.foldl (fun d p =>
    match step d.files p with
    | .ok t => { d with files := t }
    | .error m => { d with status := 1, writes := d.writes ++ [(2, c.name ++ ": " ++ m ++ "\n")] })
    c.ok

/-- The fault text of an operating-system error, without its number. -/
def faultText (e : OsError) : String := e.description

/-- `cat`: the files one after another, or the input. -/
def cat (c : Call) : Done :=
  let (_, ops) := splitOptions c.args
  let ops := if ops.isEmpty then ["-"] else ops
  ops.foldl (fun d p =>
    match c.readArg p with
    | .ok text => { d with writes := d.writes ++ [(1, text)] }
    | .error e => { d with status := 1, writes := d.writes ++ [(2, "cat: " ++ p ++ ": " ++ faultText e ++ "\n")] })
    c.ok

/-- `touch`: create the files that are missing. -/
def touch (c : Call) : Done :=
  let (opts, ops) := splitOptions c.args
  if ops.isEmpty then c.fail 1 "missing file operand\nTry 'touch --help' for more information." else
  eachOperand c ops fun t p =>
    match t.stat c.cwd p with
    | .ok _ => .ok t
    | .error .notFound =>
      if opts.contains 'c' then .ok t
      else (t.writeBytes c.cwd p []).mapError fun e => "cannot touch " ++ quotedName p ++ ": " ++ faultText e
    | .error e => .error ("cannot touch " ++ quotedName p ++ ": " ++ faultText e)

/-- `mkdir`: create directories, with `-p` their parents too. -/
def mkdir (c : Call) : Done :=
  let (opts, ops) := splitOptions c.args
  if ops.isEmpty then c.fail 1 "missing operand\nTry 'mkdir --help' for more information." else
  eachOperand c ops fun t p =>
    let r := if opts.contains 'p' then t.mkdirAll c.cwd p else t.mkdir c.cwd p
    r.mapError fun e => "cannot create directory " ++ quotedName p ++ ": " ++ faultText e

/-- `rm`: remove files, with `-r` directories too; `-f` passes over missing ones. -/
def rm (c : Call) : Done :=
  let (opts, ops) := splitOptions c.args
  let force := opts.contains 'f'
  let recursive := opts.contains 'r' || opts.contains 'R'
  if ops.isEmpty && !force then c.fail 1 "missing operand\nTry 'rm --help' for more information." else
  eachOperand c ops fun t p =>
    match t.lstat c.cwd p with
    | .error e =>
      if force && e == .notFound then .ok t
      else .error ("cannot remove " ++ quotedName p ++ ": " ++ faultText e)
    | .ok .dir =>
      if recursive then (t.removeAll c.cwd p).mapError fun e => "cannot remove " ++ quotedName p ++ ": " ++ faultText e
      else .error ("cannot remove " ++ quotedName p ++ ": Is a directory")
    | .ok _ => (t.unlink c.cwd p).mapError fun e => "cannot remove " ++ quotedName p ++ ": " ++ faultText e

/-- `rmdir`: remove empty directories. -/
def rmdir (c : Call) : Done :=
  let (_, ops) := splitOptions c.args
  eachOperand c ops fun t p =>
    (t.rmdir c.cwd p).mapError fun e => "failed to remove " ++ quotedName p ++ ": " ++ faultText e

/-- Where an operand goes when the last operand names a directory: inside it,
under its own name. -/
def intoTarget (t : FileTree) (cwd : List String) (source target : String) : String :=
  if t.isDir cwd target then Path.join target ((Path.fileName? source).getD source) else target

/-- `mv`: move or rename. -/
def mv (c : Call) : Done :=
  let (_, ops) := splitOptions c.args
  match ops.reverse with
  | [] => c.fail 1 "missing file operand\nTry 'mv --help' for more information."
  | [p] => c.fail 1 ("missing destination file operand after " ++ quotedName p ++ "\nTry 'mv --help' for more information.")
  | target :: sources =>
    eachOperand c sources.reverse fun t p =>
      match t.lstat c.cwd p with
      | .error e => .error ("cannot stat " ++ quotedName p ++ ": " ++ faultText e)
      | .ok _ =>
        let dst := intoTarget t c.cwd p target
        (t.rename c.cwd p dst).mapError fun e =>
          "cannot move " ++ quotedName p ++ " to " ++ quotedName dst ++ ": " ++ faultText e

/-- Copy everything below a directory location to another location. -/
def copyTree (t : FileTree) (src dst : List String) : FileTree :=
  let t := t.put dst .dir
  (t.below src).foldl (fun acc (rel, n) => acc.put (dst ++ rel) n) t

/-- `cp`: copy files, with `-r` directories too. -/
def cp (c : Call) : Done :=
  let (opts, ops) := splitOptions c.args
  let recursive := opts.contains 'r' || opts.contains 'R' || opts.contains 'a'
  match ops.reverse with
  | [] => c.fail 1 "missing file operand\nTry 'cp --help' for more information."
  | [p] => c.fail 1 ("missing destination file operand after " ++ quotedName p ++ "\nTry 'cp --help' for more information.")
  | target :: sources =>
    eachOperand c sources.reverse fun t p =>
      match t.stat c.cwd p with
      | .error e => .error ("cannot stat " ++ quotedName p ++ ": " ++ faultText e)
      | .ok .dir =>
        if !recursive then .error ("-r not specified; omitting directory " ++ quotedName p)
        else
          let dst := intoTarget t c.cwd p target
          match t.canonicalize c.cwd p, t.locate c.cwd dst true with
          | .ok src, .ok loc => .ok (copyTree t src loc)
          | .error e, _ | _, .error e => .error ("cannot create directory " ++ quotedName dst ++ ": " ++ faultText e)
      | .ok _ =>
        let dst := intoTarget t c.cwd p target
        (t.copyFile c.cwd p dst).mapError fun e =>
          "cannot create regular file " ++ quotedName dst ++ ": " ++ faultText e

/-- `ln`: with `-s` a symbolic link, otherwise a copy standing in for a hard link. -/
def ln (c : Call) : Done :=
  let (opts, ops) := splitOptions c.args
  let symbolic := opts.contains 's'
  let force := opts.contains 'f'
  match ops with
  | [target, link] =>
    let link := intoTarget c.files c.cwd target link
    eachOperand c [link] fun t p =>
      let t := if force then (t.unlink c.cwd p).toOption.getD t else t
      if symbolic then
        (t.symlink c.cwd target p).mapError fun e =>
          "failed to create symbolic link " ++ quotedName p ++ ": " ++ faultText e
      else
        (t.copyFile c.cwd target p).mapError fun e =>
          "failed to create hard link " ++ quotedName p ++ ": " ++ faultText e
  | _ => c.fail 1 "missing file operand\nTry 'ln --help' for more information."

/-- The permission bits after a symbolic mode such as `+x` or `u+w`, or an
octal one such as `755`. -/
def applyMode (mode : Nat) (spec : String) : Option Nat :=
  if !spec.isEmpty && spec.all (fun ch => '0' ≤ ch && ch ≤ '7') then
    some (spec.foldl (fun n ch => n * 8 + (ch.toNat - '0'.toNat)) 0)
  else
    let (who, rest) := spec.toList.span fun ch => ch == 'u' || ch == 'g' || ch == 'o' || ch == 'a'
    match rest with
    | op :: perms =>
      let shifts := if who.isEmpty || who.contains 'a' then [6, 3, 0]
        else (if who.contains 'u' then [6] else []) ++ (if who.contains 'g' then [3] else []) ++
          (if who.contains 'o' then [0] else [])
      let bits := (if perms.contains 'r' then 4 else 0) + (if perms.contains 'w' then 2 else 0) +
        (if perms.contains 'x' then 1 else 0)
      let mask := shifts.foldl (fun m s => m + bits * Nat.pow 2 s) 0
      let full := shifts.foldl (fun m s => m + 7 * Nat.pow 2 s) 0
      match op with
      | '+' => some (mode ||| mask)
      | '-' => some (mode &&& (0o7777 - mask))
      | '=' => some ((mode &&& (0o7777 - full)) ||| mask)
      | _ => none
    | [] => none

/-- `chmod`: set permission bits. -/
def chmod (c : Call) : Done :=
  match c.args with
  | spec :: ops =>
    eachOperand c ops fun t p =>
      match t.stat c.cwd p with
      | .ok (.file _ mode) =>
        match applyMode mode spec with
        | some m => (t.chmod c.cwd p m).mapError faultText
        | none => .error ("invalid mode: " ++ quotedName spec)
      | .ok _ => .ok t
      | .error e => .error ("cannot access " ++ quotedName p ++ ": " ++ faultText e)
  | [] => c.fail 1 "missing operand\nTry 'chmod --help' for more information."

/-- `ls`: the names in directories, in code-point order, one to a line. -/
def ls (c : Call) : Done :=
  let (opts, ops) := splitOptions c.args
  let all := opts.contains 'a' || opts.contains 'A'
  let ops := if ops.isEmpty then ["."] else ops
  let many := ops.length > 1
  ops.foldl (fun d p =>
    match c.files.stat c.cwd p with
    | .ok .dir =>
      let names := ((c.files.readDir c.cwd p).toOption.getD []).filter fun n => all || !n.startsWith "."
      let head := if many then p ++ ":\n" else ""
      { d with writes := d.writes ++ [(1, head ++ unlines names)] }
    | .ok _ => { d with writes := d.writes ++ [(1, p ++ "\n")] }
    | .error e =>
      { d with status := 2, writes := d.writes ++
        [(2, "ls: cannot access " ++ quotedName p ++ ": " ++ faultText e ++ "\n")] })
    c.ok

/-- A path without the slashes at its end; a path of slashes only keeps one. -/
def stripTrailingSlashes (p : String) : String :=
  let cs := p.toList.reverse.dropWhile (· == '/')
  if cs.isEmpty && p.startsWith "/" then "/" else String.ofList cs.reverse

/-- The last part of a path, as `basename` prints it. -/
def baseName (p : String) : String :=
  if p.isEmpty then "" else
  let s := stripTrailingSlashes p
  if s == "/" then "/" else ((s.splitOn "/").getLast?).getD s

/-- Everything of a path before its last part, as `dirname` prints it. -/
def dirName (p : String) : String :=
  let s := stripTrailingSlashes p
  if s == "/" then "/" else
  let parts := s.splitOn "/"
  if parts.length ≤ 1 then "." else
  let parent := stripTrailingSlashes (String.intercalate "/" parts.dropLast)
  if parent.isEmpty then "/" else parent

/-- `basename`: the last part of a path, with a suffix removed. -/
def basename (c : Call) : Done :=
  let (_, ops) := splitOptions c.args
  match ops with
  | [] => c.fail 1 "missing operand\nTry 'basename --help' for more information."
  | [p] => c.say (baseName p ++ "\n")
  | [p, suffix] =>
    let b := baseName p
    let b := if b.endsWith suffix && b != suffix then String.ofList (b.toList.take (b.length - suffix.length)) else b
    c.say (b ++ "\n")
  | _ :: _ :: extra :: _ => c.fail 1 ("extra operand " ++ quotedName extra ++ "\nTry 'basename --help' for more information.")

/-- `dirname`: each path without its last part. -/
def dirname (c : Call) : Done :=
  let (_, ops) := splitOptions c.args
  if ops.isEmpty then c.fail 1 "missing operand\nTry 'dirname --help' for more information."
  else c.say (unlines (ops.map dirName))

/-- `readlink`: the target of a link, or with `-f` the full path a path leads to. -/
def readlink (c : Call) : Done :=
  let (opts, ops) := splitOptions c.args
  match ops with
  | [p] =>
    if opts.contains 'f' || opts.contains 'e' || opts.contains 'm' then
      match c.files.canonicalize c.cwd p with
      | .ok loc => c.say (locationText loc ++ "\n")
      | .error _ => ⟨1, [], c.files⟩
    else
      match c.files.readLink c.cwd p with
      | .ok target => c.say (target ++ "\n")
      | .error _ => ⟨1, [], c.files⟩
  | _ => c.fail 1 "missing operand\nTry 'readlink --help' for more information."

/-- `realpath`: the full path each path leads to. -/
def realpath (c : Call) : Done :=
  let (_, ops) := splitOptions c.args
  eachOperandText c ops
where
  /-- Print each resolved path; a path that leads nowhere is an error. -/
  eachOperandText (c : Call) (ops : List String) : Done :=
    ops.foldl (fun d p =>
      match c.files.canonicalize c.cwd p with
      | .ok loc => { d with writes := d.writes ++ [(1, locationText loc ++ "\n")] }
      | .error e => { d with status := 1, writes := d.writes ++ [(2, "realpath: " ++ p ++ ": " ++ faultText e ++ "\n")] })
      c.ok

end Provisioning.Shell
