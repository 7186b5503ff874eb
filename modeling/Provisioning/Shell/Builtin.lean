import Provisioning.Shell.Expand
import Provisioning.Shell.Utility.Format

/-!
# Commands built into the shell

The commands that work on the shell itself or need no program of their own:
`echo`, `printf`, `test` and `[`, `read`, `cd`, `pwd`, `export`, `unset`,
`shift`, `set`, `local` and the ones that only give a status. Each takes the
line it stands on, for messages, and its arguments, and gives a status and the
shell after it. Messages name the script and the line as the shell does:
`script: 3: message` for the POSIX shell, `script: line 3: message` for bash.
-/

namespace Provisioning.Shell

namespace State

/-- Write a message about the command on `line` to the error descriptor. -/
def complain (st : State) (line : Nat) (msg : String) : State :=
  let whereText := match st.dialect with
    | .posix => st.script ++ ": " ++ toString line ++ ": "
    | .bash => st.script ++ ": line " ++ toString line ++ ": "
  st.emit 2 (whereText ++ msg ++ "\n")

end State

/-- `echo`. The POSIX shell reads backslash escapes in its arguments and takes
only `-n`; bash reads escapes only with `-e` and takes `-n`, `-e` and `-E`,
also combined. -/
def echoText (d : Dialect) (args : List String) : String :=
  match d with
  | .posix =>
    let (newline, args) := match args with
      | "-n" :: rest => (false, rest)
      | _ => (true, args)
    let (body, stopped) := unescapeText true (" ".intercalate args)
    body ++ (if newline && !stopped then "\n" else "")
  | .bash =>
    let isOpt (a : String) : Bool :=
      a.startsWith "-" && a.length > 1 && (a.toList.drop 1).all fun c => c == 'n' || c == 'e' || c == 'E'
    let opts := args.takeWhile isOpt
    let rest := args.drop opts.length
    let letters := opts.flatMap fun o => o.toList.drop 1
    let newline := !letters.contains 'n'
    let escapes := letters.foldl (fun e c => if c == 'e' then true else if c == 'E' then false else e) false
    let joined := " ".intercalate rest
    let (body, stopped) := if escapes then unescapeText true joined else (joined, false)
    body ++ (if newline && !stopped then "\n" else "")

/-- The integer of a `test` operand, as the shell reads it. -/
def testNumber (s : String) : Option Int :=
  let t := (s.toList.dropWhile (fun c => c == ' ' || c == '\t')).reverse.dropWhile (fun c => c == ' ' || c == '\t')
  (String.ofList t.reverse).toInt?

/-- The unary file and string tests. -/
def unaryTest (st : State) (op arg : String) : Option Bool :=
  let node := st.files.stat st.cwd arg
  let has (p : Node → Bool) : Bool := match node with
    | .ok n => p n
    | .error _ => false
  match op with
  | "-n" => some !arg.isEmpty
  | "-z" => some arg.isEmpty
  | "-e" | "-a" => some (has fun _ => true)
  | "-f" => some (has Node.isFile)
  | "-d" => some (has Node.isDir)
  | "-s" => some (has fun n => match n with | .file data _ => !data.isEmpty | _ => true)
  | "-r" | "-w" => some (has fun _ => true)
  | "-x" => some (has fun n => n.isDir || n.isExecutable)
  | "-L" | "-h" => some (match st.files.lstat st.cwd arg with
      | .ok n => n.isLink
      | .error _ => false)
  | "-p" | "-S" | "-b" | "-c" | "-t" => some false
  | _ => none

/-- The binary tests; a comparison of numbers with a non-number is an error. -/
def binaryTest (op a b : String) : Option (Except String Bool) :=
  let num (f : Int → Int → Bool) : Except String Bool :=
    match testNumber a, testNumber b with
    | some x, some y => .ok (f x y)
    | none, _ => .error ("Illegal number: " ++ a)
    | _, none => .error ("Illegal number: " ++ b)
  match op with
  | "=" | "==" => some (.ok (a == b))
  | "!=" => some (.ok (a != b))
  | "<" => some (.ok (a < b))
  | ">" => some (.ok (b < a))
  | "-eq" => some (num fun x y => x == y)
  | "-ne" => some (num fun x y => x != y)
  | "-lt" => some (num fun x y => x < y)
  | "-le" => some (num fun x y => x ≤ y)
  | "-gt" => some (num fun x y => x > y)
  | "-ge" => some (num fun x y => x ≥ y)
  | _ => none

mutual

/-- Alternatives joined by `-o`. -/
def testOr (st : State) (fuel : Nat) (args : List String) : Except String (Bool × List String) :=
  match fuel with
  | 0 => .error "expression too deep"
  | fuel + 1 => do
    let (a, rest) ← testAnd st fuel args
    match rest with
    | "-o" :: more => do
      let (b, rest) ← testOr st fuel more
      .ok (a || b, rest)
    | _ => .ok (a, rest)

/-- Conditions joined by `-a`. -/
def testAnd (st : State) (fuel : Nat) (args : List String) : Except String (Bool × List String) :=
  match fuel with
  | 0 => .error "expression too deep"
  | fuel + 1 => do
    let (a, rest) ← testNot st fuel args
    match rest with
    | "-a" :: more => do
      let (b, rest) ← testAnd st fuel more
      .ok (a && b, rest)
    | _ => .ok (a, rest)

/-- A condition, perhaps negated by `!`. -/
def testNot (st : State) (fuel : Nat) (args : List String) : Except String (Bool × List String) :=
  match fuel with
  | 0 => .error "expression too deep"
  | fuel + 1 =>
    match args with
    | "!" :: rest => do
      let (a, rest) ← testNot st fuel rest
      .ok (!a, rest)
    | "(" :: rest => do
      let (a, rest) ← testOr st fuel rest
      match rest with
      | ")" :: rest => .ok (a, rest)
      | _ => .error "closing paren expected"
    | a :: op :: b :: rest =>
      match binaryTest op a b with
      | some r => do .ok (← r, rest)
      | none =>
        match unaryTest st a op with
        | some v => .ok (v, b :: rest)
        | none => .ok (!a.isEmpty, op :: b :: rest)
    | [op, arg] =>
      match unaryTest st op arg with
      | some v => .ok (v, [])
      | none => .error (arg ++ ": unexpected operator")
    | [a] => .ok (!a.isEmpty, [])
    | [] => .error "argument expected"

end

/-- The truth of a `test` expression: the POSIX rules for up to four
arguments, then the general grammar of `!`, `-a`, `-o` and parentheses. -/
def testArgs (st : State) (args : List String) : Except String Bool :=
  match args with
  | [] => .ok false
  | [a] => .ok !a.isEmpty
  | ["!", a] => .ok a.isEmpty
  | [op, a] =>
    match unaryTest st op a with
    | some v => .ok v
    | none => .error (op ++ ": unexpected operator")
  | [a, op, b] =>
    match binaryTest op a b with
    | some r => r
    | none =>
      if a == "!" then (testArgs st [op, b]).map (!·)
      else if a == "(" && b == ")" then .ok !op.isEmpty
      else .error (op ++ ": unexpected operator")
  | ["!", a, op, b] => (testArgs st [a, op, b]).map (!·)
  | _ => do
    let (v, rest) ← testOr st (2 * args.length + 2) args
    if rest.isEmpty then .ok v else .error (String.intercalate " " rest ++ ": unexpected operator")
termination_by args.length

/-- One line of the input for `read`: the line, the input after it, and whether
it ended with a line end. Without `raw`, a backslash keeps the next character
and a backslash before a line end joins the next line. -/
def readLine (raw : Bool) : List Char → List Char → List Char × List Char × Bool
  | [], acc => (acc.reverse, [], false)
  | '\n' :: rest, acc => (acc.reverse, rest, true)
  | '\\' :: '\n' :: rest, acc => if raw then readLine raw ('\n' :: rest) ('\\' :: acc) else readLine raw rest acc
  | '\\' :: c :: rest, acc => if raw then readLine raw (c :: rest) ('\\' :: acc) else readLine raw rest (c :: acc)
  | c :: rest, acc => readLine raw rest (c :: acc)
termination_by cs => cs.length

/-- Split a line read by `read` among names: one field each, the last name
taking the rest of the line without the separators around it. -/
def splitForRead (names : List String) (line : List Char) : List (String × String) :=
  let trim (cs : List Char) : List Char := cs.dropWhile Fields.isSeparator
  match names with
  | [] => []
  | [n] => [(n, String.ofList (trim (trim line).reverse).reverse)]
  | n :: more =>
    let cs := trim line
    let (w, rest) := cs.span fun c => !Fields.isSeparator c
    (n, String.ofList w) :: splitForRead more rest

/-- `read`: assign a line of the input to the names. -/
def readBuiltin (st : State) (args : List String) : Nat × State :=
  let (raw, names) := match args with
    | "-r" :: rest => (true, rest)
    | rest => (false, rest)
  let names := if names.isEmpty then ["REPLY"] else names
  let (line, rest, ended) := readLine raw st.input.toList []
  let st := { st with input := String.ofList rest }
  if !ended && line.isEmpty then
    (1, names.foldl (fun st n => st.setVar n "") st)
  else
    let st := (splitForRead names line).foldl (fun st (n, v) => st.setVar n v) st
    (if ended then 0 else 1, st)

/-- A path with `.` and `..` parts settled by their text alone, as `cd` keeps
the logical working directory. -/
def logicalJoin (base : String) (p : String) : String :=
  let parts := (if Path.isAbsolute p then [] else (base.splitOn "/").filter (!·.isEmpty)) ++
    (p.splitOn "/").filter (!·.isEmpty)
  let kept := parts.foldl (fun acc part =>
    if part == "." then acc else if part == ".." then acc.dropLast else acc ++ [part]) []
  "/" ++ "/".intercalate kept

/-- `cd`: change the working directory, to `HOME` without an operand. -/
def cdBuiltin (st : State) (line : Nat) (args : List String) : Nat × State :=
  let target := match args with
    | [] => (st.var? "HOME").getD "/"
    | "-" :: _ => (st.var? "OLDPWD").getD st.cwdText
    | d :: _ => d
  match st.files.canonicalize st.cwd target with
  | .ok loc =>
    match st.files.node? loc with
    | some .dir =>
      let old := (st.var? "PWD").getD st.cwdText
      let logical := logicalJoin old target
      let st := { st with cwd := loc }
      (0, (st.setVar "OLDPWD" old).setVar "PWD" logical)
    | _ => fault
  | .error _ => fault
where
  /-- The message for a directory that cannot be entered. -/
  fault : Nat × State :=
    let target := args.headD ""
    match st.dialect with
    | .posix => (2, st.complain line ("cd: can't cd to " ++ target))
    | .bash => (1, st.complain line ("cd: " ++ target ++ ": No such file or directory"))

/-- Whether a word is a number of the shell, for `exit`, `shift` and `return`. -/
def statusArg (s : String) : Option Nat := s.toNat?

end Provisioning.Shell
