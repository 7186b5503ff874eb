import Provisioning.Shell.Reader
import Provisioning.Shell.Builtin
import Provisioning.Shell.Arith
import Provisioning.Shell.Utility.Awk

/-!
# Running scripts and programs

The evaluator of the shell and the starting of programs, which call each
other: a script starts programs, and a program may be a script.

A program name without a slash is looked up in the directories of `PATH`; one
with a slash names a file. The system's own programs (the shells, `env` and
the utilities) live in `/usr/bin`, which `/bin` is the same as. A file runs
only when its execute bit is set; its first line `#!interpreter [arg]` names
the program that reads it, and a file without one cannot be started (the shell
itself then reads it as a script). Starting fails with the operating system's
error: no such file, permission denied, or exec format error.

A command's run ends normally, or by `exit`, `return`, `break`, `continue`, or
a signal; each function takes fuel, one step per nested call or loop turn,
and running out of it ends the run.
-/

namespace Provisioning.Shell

/-- How a run of commands ended. -/
inductive Flow where
  | normal
  | exit
  | ret
  | brk (n : Nat)
  | cont (n : Nat)
  | killed
  deriving DecidableEq, Repr, Inhabited

/-- What a program run to its end leaves: its status (`none` when a signal
ended it), its output, its error text, and the file tree. -/
structure Finished where
  code : Option Nat
  out : String
  err : String
  files : FileTree
  deriving Inhabited

/-- The status of a command a signal killed: 128 and the signal's number, 9. -/
def killedStatus : Nat := 137

/-- The number the shell answers for `$$`. -/
def shellPid : Nat := 4242

/-- The directories the system's programs live in. -/
def programDirs : List String := ["/usr/bin", "/bin"]

/-- The search path when the environment gives none. -/
def defaultSearchPath : String := "/usr/local/sbin:/usr/local/bin:/usr/sbin:/usr/bin:/sbin:/bin"

/-- `id`: the user is root. -/
def idTool (c : Call) : Done :=
  if c.args.contains "-u" || c.args.contains "-g" then c.say "0\n"
  else if c.args.contains "-un" then c.say "root\n"
  else c.say "uid=0(root) gid=0(root) groups=0(root)\n"

/-- The utilities of the system, by name. -/
def utility? (name : String) : Option (Call → Done) :=
  match name with
  | "cat" => some cat
  | "touch" => some touch
  | "mkdir" => some mkdir
  | "rm" => some rm
  | "rmdir" => some rmdir
  | "mv" => some mv
  | "cp" => some cp
  | "ln" => some ln
  | "chmod" => some chmod
  | "ls" => some ls
  | "basename" => some basename
  | "dirname" => some dirname
  | "readlink" => some readlink
  | "realpath" => some realpath
  | "grep" => some grep
  | "head" => some head
  | "tail" => some tail
  | "wc" => some wc
  | "sort" => some sort
  | "uniq" => some uniq
  | "cut" => some cut
  | "tr" => some tr
  | "tee" => some tee
  | "seq" => some seq
  | "sed" => some sed
  | "awk" | "mawk" | "gawk" => some awk
  | "sleep" | "sync" => some fun c => c.ok
  | "whoami" => some fun c => c.say "root\n"
  | "id" => some idTool
  | "uname" => some fun c => c.say "Linux\n"
  | _ => none

/-- Whether a name is one of the system's programs. -/
def isSystemName (n : String) : Bool :=
  ["sh", "dash", "bash", "env", "echo", "printf", "test", "[", "pwd", "kill", "true", "false"].contains n ||
    (utility? n).isSome

/-- The system program a path names, if it names one. -/
def systemAt? (path : String) : Option String :=
  match Path.parent? path, Path.fileName? path with
  | some d, some n => if programDirs.contains d && isSystemName n then some n else none
  | _, _ => none

/-- Whether a file may be started: it exists, is not a directory, and has an
execute bit. -/
def checkExecutable (files : FileTree) (cwd : List String) (p : String) : Except OsError Unit :=
  match files.stat cwd p with
  | .error e => .error e
  | .ok .dir => .error .permissionDenied
  | .ok n => if n.isExecutable then .ok () else .error .permissionDenied

/-- The value of an environment variable. -/
def lookupEnv (env : List (String × String)) (name : String) : Option String :=
  (env.find? (·.1 == name)).map (·.2)

/-- Where starting a program goes: the path it runs from, and its name when it
is one of the system's programs. A name without a slash is looked up in the
search path; a directory there that holds it without an execute bit is
remembered, and gives "permission denied" when nothing else is found. -/
def locateProgram (files : FileTree) (cwd : List String) (env : List (String × String)) (prog : String) :
    Except OsError (String × Option String) :=
  if prog.isEmpty then .error .notFound
  else if prog.contains '/' then
    match systemAt? prog with
    | some n => .ok (prog, some n)
    | none => (checkExecutable files cwd prog).map fun _ => (prog, none)
  else search (((lookupEnv env "PATH").getD defaultSearchPath).splitOn ":") none
where
  /-- Try the directories in order. -/
  search : List String → Option OsError → Except OsError (String × Option String)
    | [], denied => .error (denied.getD .notFound)
    | d :: rest, denied =>
      let cand := joinName (if d.isEmpty then "." else d) prog
      match systemAt? cand with
      | some n => .ok (cand, some n)
      | none =>
        match checkExecutable files cwd cand with
        | .ok () => .ok (cand, none)
        | .error .permissionDenied => search rest (some .permissionDenied)
        | .error _ => search rest denied

/-- The interpreter line of a script, `#!path [argument]`: the path and the
one argument after it. -/
def shebang? (bytes : List UInt8) : Option (String × Option String) :=
  match bytes with
  | 35 :: 33 :: rest =>
    let line := (Text.decodeLossy (rest.takeWhile (· != 10))).toList
    let blank (c : Char) : Bool := c == ' ' || c == '\t'
    let (interp, after) := (line.dropWhile blank).span fun c => !blank c
    let arg := ((after.dropWhile blank).reverse.dropWhile blank).reverse
    if interp.isEmpty then none
    else some (String.ofList interp, if arg.isEmpty then none else some (String.ofList arg))
  | _ => none

/-- What a utility did, as a finished program. -/
def Finished.ofDone (d : Done) : Finished :=
  ⟨some d.status, String.join (d.writes.filterMap fun (fd, t) => if fd == 1 then some t else none),
    String.join (d.writes.filterMap fun (fd, t) => if fd == 2 then some t else none), d.files⟩

/-- The shell after a program it started has finished: the program's files,
output and error text, and its status. -/
def State.absorb (st : State) (fin : Finished) : State :=
  let st := { st with files := fin.files }
  let st := (st.emit 1 fin.out).emit 2 fin.err
  { st with status := fin.code.getD killedStatus }

/-- Point an output descriptor at a sink. -/
def State.setFd (st : State) (fd : Nat) (s : Sink) : State :=
  match fd with
  | 1 => { st with fd1 := s }
  | 2 => { st with fd2 := s }
  | _ => st

/-- The shell's words for a file that cannot be created or opened. -/
def openFault (d : Dialect) (creating : Bool) (target : String) (e : OsError) : Nat × String :=
  match d with
  | .posix =>
    let what := match creating, e with
      | true, .notFound => "Directory nonexistent"
      | false, .notFound => "No such file"
      | _, e => e.description
    (2, (if creating then "cannot create " else "cannot open ") ++ target ++ ": " ++ what)
  | .bash => (1, target ++ ": " ++ e.description)

/-- Connect one descriptor as a redirection asks; a failure gives the status
and message. -/
def openRedirect (st : State) (fd : Nat) (kind : RedirectKind) (target : String) :
    Except (Nat × String) State :=
  match kind with
  | .duplicate =>
    if target == "-" then .ok (st.setFd fd .discard)
    else
      match target.toNat? with
      | some 1 => .ok (st.setFd fd st.fd1)
      | some 2 => .ok (st.setFd fd st.fd2)
      | some 0 => .ok st
      | _ => .error (2, target ++ ": Bad file descriptor")
  | .write | .append =>
    if target == "/dev/null" then .ok (st.setFd fd .discard)
    else if target == "/dev/stdout" then .ok (st.setFd fd st.fd1)
    else if target == "/dev/stderr" then .ok (st.setFd fd st.fd2)
    else
      match st.files.locate st.cwd target true with
      | .error e => .error (openFault st.dialect true target e)
      | .ok loc =>
        match st.files.node? loc with
        | some .dir => .error (openFault st.dialect true target .isADirectory)
        | some (.file _ mode) =>
          let st := if kind == .write then { st with files := st.files.put loc (.file [] mode) } else st
          .ok (st.setFd fd (.file loc))
        | some (.link _) => .error (openFault st.dialect true target .tooManyLinks)
        | none =>
          match st.files.writeBytes st.cwd target [] with
          | .ok t => .ok ({ st with files := t }.setFd fd (.file loc))
          | .error e => .error (openFault st.dialect true target e)
  | .read =>
    if target == "/dev/null" then .ok (if fd == 0 then { st with input := "" } else st)
    else
      match st.files.readBytes st.cwd target with
      | .ok data => .ok (if fd == 0 then { st with input := Text.decodeLossy data } else st)
      | .error e => .error (openFault st.dialect false target e)

/-- Connect descriptors as the redirections ask, in order. -/
def openRedirects (st : State) : List (Nat × RedirectKind × String) → Except (Nat × String) State
  | [] => .ok st
  | (fd, kind, target) :: rest => do
    let st ← openRedirect st fd kind target
    openRedirects st rest

/-- The descriptors and, when the redirections replaced it, the input of the
shell before a command, put back after it. -/
def State.restoreFds (saved : State) (targets : List (Nat × RedirectKind × String)) (st : State) : State :=
  let readsInput := targets.any fun (fd, kind, _) => fd == 0 && kind == .read
  { st with fd1 := saved.fd1, fd2 := saved.fd2, input := if readsInput then saved.input else st.input }

/-- The value of a parameter: a variable, an argument, or a special one. -/
def State.param? (st : State) (name : String) : Option String :=
  match name with
  | "?" => some (toString st.status)
  | "$" => some (toString st.pid)
  | "#" => some (toString st.args.length)
  | "0" => some st.script
  | "@" | "*" => some (" ".intercalate st.args)
  | "!" => none
  | "-" => some ""
  | _ =>
    if !name.isEmpty && name.all Char.isDigit then
      match name.toNat? with
      | some i => if i == 0 then some st.script else st.args[i - 1]?
      | none => none
    else st.var? name

/-- Place an expanded value into the fields: quoted values stay whole,
unquoted ones are split unless splitting is off. -/
def placeValue (fs : Fields) (v : String) (quoted split : Bool) : Fields :=
  if quoted || !split then fs.addText v quoted else fs.addSplit v

/-- A text without the line ends at its end, as command substitution leaves it. -/
def stripTrailingNewlines (s : String) : String :=
  String.ofList (s.toList.reverse.dropWhile (· == '\n')).reverse

/-- `pwd`: the logical working directory, or with `-P` the physical one. -/
def pwdText (st : State) (args : List String) : String :=
  if args.contains "-P" then st.cwdText else (st.var? "PWD").getD st.cwdText

/-- `export`, `readonly` and `local`: assign `name=value` words and, for
`export`, mark the names for the environment. -/
def assignNames (st : State) (args : List String) (exporting : Bool) : State :=
  args.foldl (fun st a =>
    if a.startsWith "-" then st else
    match a.splitOn "=" with
    | [name] => if exporting then st.markExported name else st
    | name :: rest =>
      let st := st.setVar name ("=".intercalate rest)
      if exporting then st.markExported name else st
    | [] => st) st

/-- `set`: new arguments after `--` or after the options. -/
def setArgs (st : State) (args : List String) : State :=
  match args with
  | "--" :: rest => { st with args := rest }
  | a :: _ => if a.startsWith "-" || a.startsWith "+" then
      match args.dropWhile (fun a => a.startsWith "-" || a.startsWith "+") with
      | [] => st
      | "--" :: rest => { st with args := rest }
      | rest => { st with args := rest }
    else { st with args := args }
  | [] => st

/-- The message for a command that is not found. -/
def notFoundText (d : Dialect) (name : String) : String :=
  match d with
  | .posix => name ++ ": not found"
  | .bash => if name.contains '/' then name ++ ": No such file or directory" else name ++ ": command not found"

/-- The shell's names for its own commands. -/
def builtinNames : List String :=
  [":", "true", "false", "echo", "printf", "test", "[", "cd", "pwd", "exit", "return", "break",
    "continue", "export", "readonly", "local", "unset", "shift", "set", "read", "eval", ".", "source",
    "exec", "command", "kill", "trap", "wait", "umask", "ulimit", "times", "hash", "type"]

mutual

/-- Expand pieces into fields. With `split` off, no value is split. -/
def expandPieces (fuel : Nat) (st : State) (split : Bool) (ps : List Piece) (fs : Fields) :
    Except String (Fields × State) :=
  match fuel with
  | 0 => .error "expansion too deep"
  | fuel + 1 =>
    match ps with
    | [] => .ok (fs, st)
    | p :: rest => do
      let (fs, st) ← expandPiece fuel st split p fs
      expandPieces fuel st split rest fs

/-- Expand one piece into the fields. -/
def expandPiece (fuel : Nat) (st : State) (split : Bool) (p : Piece) (fs : Fields) :
    Except String (Fields × State) :=
  match fuel with
  | 0 => .error "expansion too deep"
  | fuel + 1 =>
    match p with
    | .plain t => .ok (fs.addText t false, st)
    | .quoted t => .ok (fs.addText t true, st)
    | .param name q =>
      if name == "@" && q && split then .ok (fs.addWords st.args, st)
      else .ok (placeValue fs ((st.param? name).getD "") q split, st)
    | .length name q => .ok (placeValue fs (toString ((st.param? name).getD "").length) q split, st)
    | .fallback name colon kind word q =>
      let v := st.param? name
      let unset := v.isNone || (colon && v == some "")
      match kind with
      | .useWord =>
        if unset then do
          let (w, st) ← expandText fuel st word
          .ok (placeValue fs w q split, st)
        else .ok (placeValue fs (v.getD "") q split, st)
      | .assign =>
        if unset then do
          let (w, st) ← expandText fuel st word
          .ok (placeValue fs w q split, st.setVar name w)
        else .ok (placeValue fs (v.getD "") q split, st)
      | .alternative =>
        if unset then .ok (fs, st)
        else do
          let (w, st) ← expandText fuel st word
          .ok (placeValue fs w q split, st)
      | .fail =>
        if unset then do
          let (w, _) ← expandText fuel st word
          .error (name ++ ": " ++ (if w.isEmpty then "parameter not set" else w))
        else .ok (placeValue fs (v.getD "") q split, st)
    | .trim name fromEnd longest pattern q => do
      let v := (st.param? name).getD ""
      let (pat, st) ← expandPattern fuel st pattern
      let g := Glob.compile pat
      let r := if fromEnd then dropSuffix g v.toList longest else dropPrefix g v.toList longest
      .ok (placeValue fs (String.ofList r) q split, st)
    | .output body q =>
      let (text, st) := capture fuel st body
      .ok (placeValue fs (stripTrailingNewlines text) q split, st)
    | .arith pieces q => do
      let (text, st) ← expandText fuel st pieces
      match Arith.evaluate st.param? text with
      | .ok n => .ok (placeValue fs (toString n) q split, st)
      | .error m => .error ("arithmetic expression: " ++ m ++ ": \"" ++ text ++ "\"")

/-- Expand words into the words of a command, file patterns matched. -/
def expandWords (fuel : Nat) (st : State) (words : List (List Piece)) (acc : List String) :
    Except String (List String × State) :=
  match fuel with
  | 0 => .error "expansion too deep"
  | fuel + 1 =>
    match words with
    | [] => .ok (acc, st)
    | w :: rest => do
      let (fs, st) ← expandPieces fuel st true w Fields.empty
      let ws := fs.finish.flatMap (fieldWords st.files st.cwd)
      expandWords fuel st rest (acc ++ ws)

/-- Expand pieces into one text, nothing split and no file pattern matched. -/
def expandText (fuel : Nat) (st : State) (ps : List Piece) : Except String (String × State) :=
  match fuel with
  | 0 => .error "expansion too deep"
  | fuel + 1 => do
    let (fs, st) ← expandPieces fuel st false ps Fields.empty
    .ok (String.join (fs.finish.map Field.text), st)

/-- Expand pieces into a pattern: characters with whether each was quoted. -/
def expandPattern (fuel : Nat) (st : State) (ps : List Piece) :
    Except String (List (Char × Bool) × State) :=
  match fuel with
  | 0 => .error "expansion too deep"
  | fuel + 1 => do
    let (fs, st) ← expandPieces fuel st false ps Fields.empty
    .ok (fs.finish.flatMap (·.chars.toList), st)

/-- Expand the values of assignments. -/
def expandAssigns (fuel : Nat) (st : State) (assigns : List (String × List Piece))
    (acc : List (String × String)) : Except String (List (String × String) × State) :=
  match fuel with
  | 0 => .error "expansion too deep"
  | fuel + 1 =>
    match assigns with
    | [] => .ok (acc, st)
    | (n, ps) :: rest => do
      let (v, st) ← expandText fuel st ps
      expandAssigns fuel st rest (acc ++ [(n, v)])

/-- Expand the targets of redirections. -/
def expandRedirects (fuel : Nat) (st : State) (rs : List (Nat × RedirectKind × List Piece))
    (acc : List (Nat × RedirectKind × String)) : Except String (List (Nat × RedirectKind × String) × State) :=
  match fuel with
  | 0 => .error "expansion too deep"
  | fuel + 1 =>
    match rs with
    | [] => .ok (acc, st)
    | (fd, k, ps) :: rest => do
      let (t, st) ← expandText fuel st ps
      expandRedirects fuel st rest (acc ++ [(fd, k, t)])

/-- Whether the subject matches one of the patterns of a `case` arm. -/
def matchesAny (fuel : Nat) (st : State) (subject : String) (pats : List (List Piece)) :
    Except String (Bool × State) :=
  match fuel with
  | 0 => .error "expansion too deep"
  | fuel + 1 =>
    match pats with
    | [] => .ok (false, st)
    | p :: rest => do
      let (pat, st) ← expandPattern fuel st p
      if patternMatches pat subject then .ok (true, st) else matchesAny fuel st subject rest

/-- The output of commands run in a copy of the shell, for `$(...)`. -/
def capture (fuel : Nat) (st : State) (body : List Command) : String × State :=
  match fuel with
  | 0 => ("", st)
  | fuel + 1 =>
    let (f, s2) := runList fuel { st with out := "", fd1 := .stdout } body
    let status := if f == .killed then killedStatus else s2.status
    (s2.out, { st with files := s2.files, err := s2.err, status := status, substStatus := some status })

/-- Run commands one after another, until one ends the run. -/
def runList (fuel : Nat) (st : State) (cs : List Command) : Flow × State :=
  match fuel with
  | 0 => (.exit, st)
  | fuel + 1 =>
    match cs with
    | [] => (.normal, st)
    | c :: rest =>
      let (f, st) := runCommand fuel st c
      if f == .normal then runList fuel st rest else (f, st)

/-- Run a command with redirections around it. -/
def withRedirects (fuel : Nat) (st : State) (rs : List (Nat × RedirectKind × List Piece))
    (k : State → Flow × State) : Flow × State :=
  match fuel with
  | 0 => (.exit, st)
  | fuel + 1 =>
    match expandRedirects fuel st rs [] with
    | .error m => (.exit, { st.complain 1 m with status := 2 })
    | .ok (targets, st) =>
      match openRedirects st targets with
      | .error (code, msg) => (.normal, { st.complain 1 msg with status := code })
      | .ok st2 =>
        let (f, st3) := k st2
        (f, st.restoreFds targets st3)

/-- Run one command. -/
def runCommand (fuel : Nat) (st : State) (c : Command) : Flow × State :=
  match fuel with
  | 0 => (.exit, st)
  | fuel + 1 =>
    match c with
    | .simple line assigns words redirects => runSimple fuel st line assigns words redirects
    | .group body rs => withRedirects fuel st rs fun st => runList fuel st body
    | .subshell body rs =>
      withRedirects fuel st rs fun st =>
        let (f, s2) := runList fuel st body
        (if f == .killed then .killed else .normal,
          { st with files := s2.files, out := s2.out, err := s2.err, status := s2.status, input := s2.input })
    | .branch arms otherwise rs => withRedirects fuel st rs fun st => runBranch fuel st arms otherwise
    | .forEach name items body rs =>
      withRedirects fuel st rs fun st =>
        match items with
        | none => runFor fuel st name st.args body 0
        | some ws =>
          match expandWords fuel st ws [] with
          | .ok (ws, st) => runFor fuel st name ws body 0
          | .error m => (.exit, { st.complain 1 m with status := 2 })
    | .loop untilTrue test body rs => withRedirects fuel st rs fun st => runLoop fuel st untilTrue test body 0
    | .choose subject arms rs =>
      withRedirects fuel st rs fun st =>
        match expandText fuel st subject with
        | .ok (s, st) => runCase fuel st s arms
        | .error m => (.exit, { st.complain 1 m with status := 2 })
    | .define name body => (.normal, { st with funcs := (name, body) :: st.funcs.filter (·.1 != name), status := 0 })
    | .pipe stages => runPipe fuel st stages st.input
    | .negate body =>
      let (f, st) := runCommand fuel st body
      (f, { st with status := if st.status == 0 then 1 else 0 })
    | .both a b =>
      let (f, st) := runCommand fuel st a
      if f != .normal then (f, st) else if st.status == 0 then runCommand fuel st b else (f, st)
    | .either a b =>
      let (f, st) := runCommand fuel st a
      if f != .normal then (f, st) else if st.status != 0 then runCommand fuel st b else (f, st)
    | .background body =>
      let (f, s2) := runCommand fuel st body
      (if f == .killed then .killed else .normal,
        { st with files := s2.files, out := s2.out, err := s2.err, status := 0 })

/-- Run an `if`: the first arm whose condition succeeds, or the `else` part. -/
def runBranch (fuel : Nat) (st : State) (arms : List (List Command × List Command))
    (otherwise : List Command) : Flow × State :=
  match fuel with
  | 0 => (.exit, st)
  | fuel + 1 =>
    match arms with
    | [] => if otherwise.isEmpty then (.normal, { st with status := 0 }) else runList fuel st otherwise
    | (cond, body) :: rest =>
      let (f, st) := runList fuel st cond
      if f != .normal then (f, st)
      else if st.status == 0 then
        if body.isEmpty then (.normal, { st with status := 0 }) else runList fuel st body
      else runBranch fuel st rest otherwise

/-- Run the body of a `for` loop once for each word. -/
def runFor (fuel : Nat) (st : State) (name : String) (items : List String) (body : List Command)
    (last : Nat) : Flow × State :=
  match fuel with
  | 0 => (.exit, st)
  | fuel + 1 =>
    match items with
    | [] => (.normal, { st with status := last })
    | w :: rest =>
      let (f, st) := runList fuel (st.setVar name w) body
      match f with
      | .normal => runFor fuel st name rest body st.status
      | .brk n => if n ≤ 1 then (.normal, st) else (.brk (n - 1), st)
      | .cont n => if n ≤ 1 then runFor fuel st name rest body st.status else (.cont (n - 1), st)
      | other => (other, st)

/-- Run a `while` or `until` loop. -/
def runLoop (fuel : Nat) (st : State) (untilTrue : Bool) (test body : List Command) (last : Nat) :
    Flow × State :=
  match fuel with
  | 0 => (.exit, st)
  | fuel + 1 =>
    let (f, st) := runList fuel st test
    if f != .normal then (f, st)
    else if (st.status == 0) == untilTrue then (.normal, { st with status := last })
    else
      let (f, st) := runList fuel st body
      match f with
      | .normal => runLoop fuel st untilTrue test body st.status
      | .brk n => if n ≤ 1 then (.normal, st) else (.brk (n - 1), st)
      | .cont n => if n ≤ 1 then runLoop fuel st untilTrue test body st.status else (.cont (n - 1), st)
      | other => (other, st)

/-- Run the first arm of a `case` whose pattern matches. -/
def runCase (fuel : Nat) (st : State) (subject : String)
    (arms : List (List (List Piece) × List Command)) : Flow × State :=
  match fuel with
  | 0 => (.exit, st)
  | fuel + 1 =>
    match arms with
    | [] => (.normal, { st with status := 0 })
    | (pats, body) :: rest =>
      match matchesAny fuel st subject pats with
      | .error m => (.exit, { st.complain 1 m with status := 2 })
      | .ok (true, st) => if body.isEmpty then (.normal, { st with status := 0 }) else runList fuel st body
      | .ok (false, st) => runCase fuel st subject rest

/-- Run the stages of a pipeline, each reading what the one before wrote. -/
def runPipe (fuel : Nat) (st : State) (stages : List Command) (input : String) : Flow × State :=
  match fuel with
  | 0 => (.exit, st)
  | fuel + 1 =>
    match stages with
    | [] => (.normal, st)
    | [c] =>
      let (f, s2) := runCommand fuel { st with input := input } c
      (if f == .killed then .killed else .normal,
        { st with files := s2.files, out := s2.out, err := s2.err, status := s2.status })
    | c :: rest =>
      let (f, s2) := runCommand fuel { st with out := "", fd1 := .stdout, input := input } c
      let st := { st with files := s2.files, err := s2.err }
      if f == .killed then (.killed, st) else runPipe fuel st rest s2.out

/-- Run a simple command: expand it, connect its redirections, and invoke it. -/
def runSimple (fuel : Nat) (st : State) (line : Nat) (assigns : List (String × List Piece))
    (words : List (List Piece)) (redirects : List (Nat × RedirectKind × List Piece)) : Flow × State :=
  match fuel with
  | 0 => (.exit, st)
  | fuel + 1 =>
    let st := { st with substStatus := none }
    let fatal (st : State) (m : String) : Flow × State := (.exit, { st.complain line m with status := 2 })
    match expandWords fuel st words [] with
    | .error m => fatal st m
    | .ok (argv, st) =>
      match expandAssigns fuel st assigns [] with
      | .error m => fatal st m
      | .ok (values, st) =>
        match expandRedirects fuel st redirects [] with
        | .error m => fatal st m
        | .ok (targets, st) =>
          match openRedirects st targets with
          | .error (code, msg) => (.normal, { st.complain line msg with status := code })
          | .ok st2 =>
            match argv with
            | [] =>
              let st2 := values.foldl (fun st (n, v) => st.setVar n v) st2
              (.normal, { st.restoreFds targets st2 with status := st.substStatus.getD 0 })
            | ["exec"] => (.normal, { st2 with status := 0 })
            | _ =>
              let (f, st3) := invoke fuel st2 line argv values true
              (f, st.restoreFds targets st3)

/-- Invoke a command by its words: a function, a command of the shell, or a
program. -/
def invoke (fuel : Nat) (st : State) (line : Nat) (argv : List String) (values : List (String × String))
    (useFunctions : Bool) : Flow × State :=
  match fuel with
  | 0 => (.exit, st)
  | fuel + 1 =>
    match argv with
    | [] => (.normal, st)
    | name :: args =>
      let fn := if useFunctions then st.funcs.find? (·.1 == name) else none
      match fn with
      | some (_, body) =>
        let st := values.foldl (fun st (n, v) => st.setVar n v) st
        let saved := st.args
        let (f, st2) := runCommand fuel { st with args := args } body
        let st2 := { st2 with args := saved }
        match f with
        | .exit => (.exit, st2)
        | .killed => (.killed, st2)
        | _ => (.normal, st2)
      | none =>
        let done (st : State) (code : Nat) : Flow × State := (.normal, { st with status := code })
        match name with
        | ":" | "true" => done st 0
        | "false" => done st 1
        | "echo" => done (st.emit 1 (echoText st.dialect args)) 0
        | "printf" =>
          match args with
          | fmt :: rest =>
            let (t, good) := printfText fmt rest
            done (st.emit 1 t) (if good then 0 else 1)
          | [] => done (st.complain line "printf: usage: printf format [arg ...]") 2
        | "test" | "[" =>
          let body := if name == "[" then
              if args.getLast? == some "]" then some args.dropLast else none
            else some args
          match body with
          | none => done (st.complain line "[: missing ]") 2
          | some targs =>
            match testArgs st targs with
            | .ok v => done st (if v then 0 else 1)
            | .error m => done (st.complain line (name ++ ": " ++ m)) 2
        | "cd" =>
          let (code, st) := cdBuiltin st line args
          done st code
        | "pwd" => done (st.emit 1 (pwdText st args ++ "\n")) 0
        | "exit" =>
          match args with
          | [] => (.exit, st)
          | a :: _ =>
            match a.toNat? with
            | some n => (.exit, { st with status := n % 256 })
            | none => (.exit, { st.complain line ("exit: Illegal number: " ++ a) with status := 2 })
        | "return" => (.ret, { st with status := ((args.head?.bind String.toNat?).getD st.status) % 256 })
        | "break" => (.brk ((args.head?.bind String.toNat?).getD 1), { st with status := 0 })
        | "continue" => (.cont ((args.head?.bind String.toNat?).getD 1), { st with status := 0 })
        | "export" => done (assignNames st args true) 0
        | "readonly" | "local" => done (assignNames st args false) 0
        | "unset" =>
          let funcsToo := args.contains "-f"
          let names := args.filter (!·.startsWith "-")
          let st := names.foldl (fun st n =>
            if funcsToo then { st with funcs := st.funcs.filter (·.1 != n) } else st.unsetVar n) st
          done st 0
        | "shift" =>
          let n := (args.head?.bind String.toNat?).getD 1
          if n > st.args.length then (.exit, { st.complain line "shift: can't shift that many" with status := 2 })
          else done { st with args := st.args.drop n } 0
        | "set" => done (setArgs st args) 0
        | "read" =>
          let (code, st) := readBuiltin st args
          done st code
        | "eval" =>
          match parseScript (" ".intercalate args) with
          | .ok cmds => runList fuel st cmds
          | .error e => (.exit, { st.complain line e.message with status := 2 })
        | "." | "source" =>
          match args with
          | file :: _ =>
            match st.files.readBytes st.cwd file with
            | .ok data =>
              match parseScript (Text.decodeLossy data) with
              | .ok cmds =>
                let (f, st) := runList fuel st cmds
                (if f == .ret then .normal else f, st)
              | .error e => (.exit, { st.complain e.line e.message with status := 2 })
            | .error _ => (.exit, { st.complain line (name ++ ": cannot open " ++ file ++ ": No such file") with status := 2 })
          | [] => done st 0
        | "exec" =>
          let (f, st) := invoke fuel st line args values false
          (if f == .killed then .killed else .exit, st)
        | "command" =>
          match args with
          | "-v" :: n :: _ =>
            if builtinNames.contains n || (st.funcs.find? (·.1 == n)).isSome then done (st.emit 1 (n ++ "\n")) 0
            else
              match locateProgram st.files st.cwd st.environment n with
              | .ok (path, _) => done (st.emit 1 (path ++ "\n")) 0
              | .error _ => done st 127
          | _ => invoke fuel st line args values false
        | "type" =>
          args.foldl (fun (f, st) n =>
            if builtinNames.contains n then (f, { (st.emit 1 (n ++ " is a shell builtin\n")) with status := 0 })
            else if (st.funcs.find? (·.1 == n)).isSome then (f, { (st.emit 1 (n ++ " is a shell function\n")) with status := 0 })
            else match locateProgram st.files st.cwd st.environment n with
              | .ok (path, _) => (f, { (st.emit 1 (n ++ " is " ++ path ++ "\n")) with status := 0 })
              | .error _ => (f, { (st.emit 1 (n ++ ": not found\n")) with status := 127 })) (.normal, st)
        | "kill" =>
          let targets := (args.filter fun a => !a.startsWith "-").filter fun a => a != "KILL" && a != "TERM" && a != "9"
          if targets.any (· == toString st.pid) then (.killed, st)
          else done (st.complain line "kill: No such process") 1
        | "trap" | "wait" | "umask" | "ulimit" | "times" | "hash" => done st 0
        | _ =>
          let env := values.foldl (fun env (n, v) => (n, v) :: env.filter (·.1 != n)) st.environment
          match runProgram fuel st.files st.cwd env st.input name args with
          | .ok fin => (.normal, st.absorb fin)
          | .error .notFound => done (st.complain line (notFoundText st.dialect name)) 127
          | .error .execFormat =>
            match st.files.readBytes st.cwd name with
            | .ok data =>
              (.normal, st.absorb (runScriptText fuel st.dialect name (Text.decodeLossy data) args st.files
                st.cwd env st.input))
            | .error e => done (st.complain line (name ++ ": " ++ e.description)) 126
          | .error e => done (st.complain line (name ++ ": " ++ e.description)) 126

/-- Start a program by name and run it to its end. -/
def runProgram (fuel : Nat) (files : FileTree) (cwd : List String) (env : List (String × String))
    (input : String) (prog : String) (args : List String) : Except OsError Finished :=
  match fuel with
  | 0 => .error .notFound
  | fuel + 1 =>
    match locateProgram files cwd env prog with
    | .error e => .error e
    | .ok (_, some name) => .ok (runSystem fuel name prog args files cwd env input)
    | .ok (path, none) =>
      match files.readBytes cwd path with
      | .error e => .error e
      | .ok bytes =>
        match shebang? bytes with
        | none => .error .execFormat
        | some (interp, extra) =>
          match systemAt? interp with
          | some name => .ok (runSystem fuel name interp (extra.toList ++ [path] ++ args) files cwd env input)
          | none => .error .notFound

/-- Run one of the system's programs. -/
def runSystem (fuel : Nat) (name arg0 : String) (args : List String) (files : FileTree) (cwd : List String)
    (env : List (String × String)) (input : String) : Finished :=
  match fuel with
  | 0 => ⟨some 1, "", "", files⟩
  | fuel + 1 =>
    match name with
    | "sh" | "dash" => shellMain fuel .posix arg0 args files cwd env input
    | "bash" => shellMain fuel .bash arg0 args files cwd env input
    | "env" =>
      let isAssign (a : String) : Bool := a.contains '=' && !a.startsWith "-"
      let clear := args.head? == some "-i"
      let args := if clear then args.drop 1 else args
      let sets := args.takeWhile isAssign
      let rest := args.drop sets.length
      let base := if clear then [] else env
      let env := sets.foldl (fun env a =>
        match a.splitOn "=" with
        | n :: vs => (n, "=".intercalate vs) :: env.filter (·.1 != n)
        | [] => env) base
      match rest with
      | [] => ⟨some 0, String.join (env.reverse.map fun (n, v) => n ++ "=" ++ v ++ "\n"), "", files⟩
      | prog :: more =>
        match runProgram fuel files cwd env input prog more with
        | .ok fin => fin
        | .error e =>
          ⟨some (if e == .notFound then 127 else 126), "", arg0 ++ ": '" ++ prog ++ "': " ++ e.description ++ "\n", files⟩
    | "echo" => ⟨some 0, echoText .bash args, "", files⟩
    | "printf" =>
      match args with
      | fmt :: rest =>
        let (t, good) := printfText fmt rest
        ⟨some (if good then 0 else 1), t, "", files⟩
      | [] => ⟨some 1, "", arg0 ++ ": missing operand\n", files⟩
    | "pwd" => ⟨some 0, locationText cwd ++ "\n", "", files⟩
    | "true" => ⟨some 0, "", "", files⟩
    | "false" => ⟨some 1, "", "", files⟩
    | _ =>
      match utility? name with
      | some u => Finished.ofDone (u ⟨arg0, args, input, cwd, files, env⟩)
      | none => ⟨some 127, "", "", files⟩

/-- A shell started as a program: `-c text [name [args]]`, `script [args]`, or
the script on its input. -/
def shellMain (fuel : Nat) (d : Dialect) (arg0 : String) (args : List String) (files : FileTree)
    (cwd : List String) (env : List (String × String)) (input : String) : Finished :=
  match fuel with
  | 0 => ⟨some 2, "", "", files⟩
  | fuel + 1 =>
    let isOpt (a : String) : Bool := (a.startsWith "-" || a.startsWith "+") && a.length > 1 && a != "--"
    let opts := args.takeWhile isOpt
    let rest := args.drop opts.length
    let rest := if rest.head? == some "--" then rest.drop 1 else rest
    let command := opts.any fun o => o.startsWith "-" && o.contains 'c'
    if command then
      match rest with
      | text :: more =>
        runScriptText fuel d (more.headD arg0) text (more.drop 1) files cwd env input
      | [] => ⟨some 2, "", arg0 ++ ": 0: -c requires an argument\n", files⟩
    else
      match rest with
      | script :: more =>
        match files.readBytes cwd script with
        | .ok data => runScriptText fuel d script (Text.decodeLossy data) more files cwd env input
        | .error e =>
          match d with
          | .posix =>
            let what := if e == .notFound then "No such file" else e.description
            ⟨some 2, "", arg0 ++ ": 0: cannot open " ++ script ++ ": " ++ what ++ "\n", files⟩
          | .bash => ⟨some 127, "", arg0 ++ ": " ++ script ++ ": " ++ e.description ++ "\n", files⟩
      | [] => runScriptText fuel d arg0 input [] files cwd env ""

/-- Run a script's text in a new shell whose `$0` is `name`. -/
def runScriptText (fuel : Nat) (d : Dialect) (name text : String) (args : List String) (files : FileTree)
    (cwd : List String) (env : List (String × String)) (input : String) : Finished :=
  match fuel with
  | 0 => ⟨some 2, "", "", files⟩
  | fuel + 1 =>
    match parseScript text with
    | .error e =>
      let whereText := match d with
        | .posix => name ++ ": " ++ toString e.line ++ ": "
        | .bash => name ++ ": line " ++ toString e.line ++ ": "
      ⟨some 2, "", whereText ++ e.message ++ "\n", files⟩
    | .ok cmds =>
      let pwd := locationText cwd
      let vars := env.reverse.foldl (fun vs (n, v) => (n, v) :: vs.filter (·.1 != n)) []
      let st : State := {
        files, cwd, args, input, dialect := d
        vars := ("PWD", pwd) :: vars.filter (·.1 != "PWD")
        exported := (env.map (·.1)) ++ (if env.any (·.1 == "PWD") then [] else ["PWD"])
        script := name, status := 0, funcs := [], out := "", err := ""
        fd1 := .stdout, fd2 := .stderr, pid := shellPid, substStatus := none }
      let (f, st) := runList fuel st cmds
      ⟨if f == .killed then none else some st.status, st.out, st.err, st.files⟩

end

/-- How much a program may do: steps of nesting and loop turns. -/
def programFuel : Nat := 100000

/-- Start a program and run it to its end on a file tree. -/
def startProgram (files : FileTree) (cwd : List String) (env : List (String × String)) (prog : String)
    (args : List String) : Except OsError Finished :=
  runProgram programFuel files cwd env "" prog args

end Provisioning.Shell
