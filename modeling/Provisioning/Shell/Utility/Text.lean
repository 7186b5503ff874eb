import Provisioning.Shell.Utility.Files
import Provisioning.Shell.Regex
import Provisioning.Text.Sort

/-!
# Utilities on lines of text

`grep`, `sed` (its `s`, `d` and `p` commands), `head`, `tail`, `wc`, `sort`,
`uniq`, `cut`, `tr`, `tee` and `seq`. Each reads its file operands, or its input
when there are none, as lines.
-/

namespace Provisioning.Shell

/-- The texts of the operands, or of the input when there are none, with the
name each is reported under; unreadable operands give their fault. -/
def sources (c : Call) (ops : List String) : List (String × Except OsError String) :=
  if ops.isEmpty then [("(standard input)", .ok c.input)]
  else ops.map fun p => (p, c.readArg p)

/-- Options that take a value, such as `-n 3` or `-n3`, apart from the flags. -/
def optionValues (valued : List Char) : List String → List (Char × String) × List Char × List String
  | [] => ([], [], [])
  | "--" :: rest => ([], [], rest)
  | a :: rest =>
    if a.startsWith "-" && a.length > 1 && !(a.toList.drop 1).all Char.isDigit then
      match a.toList.drop 1 with
      | o :: more =>
        if valued.contains o then
          if more.isEmpty then
            match rest with
            | v :: rest' =>
              let (vs, fs, ops) := optionValues valued rest'
              ((o, v) :: vs, fs, ops)
            | [] => ([], [o], [])
          else
            let (vs, fs, ops) := optionValues valued rest
            ((o, String.ofList more) :: vs, fs, ops)
        else
          let (vs, fs, ops) := optionValues valued rest
          (vs, o :: more ++ fs, ops)
      | [] => ([], [], a :: rest)
    else if a.startsWith "-" && a.length > 1 then
      let (vs, fs, ops) := optionValues valued rest
      (('n', String.ofList (a.toList.drop 1)) :: vs, fs, ops)
    else ([], [], a :: rest)

/-- `grep`: the lines that match (or, with `-v`, do not match) a pattern. -/
def grep (c : Call) : Done :=
  let (vals, flags, ops) := optionValues ['e', 'f', 'm'] c.args
  let (pattern, files) := match vals.find? (·.1 == 'e'), ops with
    | some (_, p), _ => (some p, ops)
    | none, p :: rest => (some p, rest)
    | none, [] => (none, [])
  match pattern with
  | none => ⟨2, [(2, "Usage: grep [OPTION]... PATTERNS [FILE]...\nTry 'grep --help' for more information.\n")], c.files⟩
  | some pattern =>
  let fold := flags.contains 'i'
  let lower (s : String) : String := if fold then s.toLower else s
  let re := if flags.contains 'F' then .ok (Regex.literal (lower pattern))
    else Regex.parse (lower pattern) (flags.contains 'E')
  match re with
  | .error m => c.fail 2 m
  | .ok re =>
    let invert := flags.contains 'v'
    let whole := flags.contains 'x'
    let quiet := flags.contains 'q'
    let count := flags.contains 'c'
    let numbered := flags.contains 'n'
    let named := files.length > 1 && !flags.contains 'h'
    let ins := sources c files
    let (found, writes, failed) := ins.foldl (fun (found, writes, failed) (name, text) =>
      match text with
      | .error e => (found, writes ++ [(2, "grep: " ++ name ++ ": " ++ faultText e ++ "\n")], true)
      | .ok text =>
        let lines := (textLines text).zipIdx
        let hits := lines.filter fun (l, _) =>
          (if whole then re.testWhole (lower l) else re.test (lower l)) != invert
        let prefix_ := if named then name ++ ":" else ""
        let out := if count then [(1, prefix_ ++ toString hits.length ++ "\n")]
          else hits.map fun (l, i) => (1, prefix_ ++ (if numbered then toString (i + 1) ++ ":" else "") ++ l ++ "\n")
        (found || !hits.isEmpty, writes ++ (if quiet then [] else out), failed)) (false, [], false)
    let status := if failed && !(quiet && found) then 2 else if found then 0 else 1
    ⟨status, writes, c.files⟩

/-- The count an option like `-n 3` gives, or the default. -/
def countOption (vals : List (Char × String)) (default : Nat) : Nat :=
  match vals.find? (·.1 == 'n') with
  | some (_, v) => (v.dropWhile (· == '+')).toString.toNat?.getD default
  | none => default

/-- `head`: the first lines. -/
def head (c : Call) : Done :=
  let (vals, _, ops) := optionValues ['n', 'c'] c.args
  let n := countOption vals 10
  (sources c ops).foldl (fun d (name, text) =>
    match text with
    | .ok t => { d with writes := d.writes ++ [(1, unlines ((textLines t).take n))] }
    | .error e => { d with status := 1, writes := d.writes ++
        [(2, "head: cannot open " ++ quotedName name ++ " for reading: " ++ faultText e ++ "\n")] })
    c.ok

/-- `tail`: the last lines, or with `-n +k` the lines from the k-th on. -/
def tail (c : Call) : Done :=
  let (vals, _, ops) := optionValues ['n', 'c'] c.args
  let fromStart := match vals.find? (·.1 == 'n') with
    | some (_, v) => v.startsWith "+"
    | none => false
  let n := countOption vals 10
  (sources c ops).foldl (fun d (name, text) =>
    match text with
    | .ok t =>
      let ls := textLines t
      let keep := if fromStart then ls.drop (n - 1) else ls.drop (ls.length - n)
      { d with writes := d.writes ++ [(1, unlines keep)] }
    | .error e => { d with status := 1, writes := d.writes ++
        [(2, "tail: cannot open " ++ quotedName name ++ " for reading: " ++ faultText e ++ "\n")] })
    c.ok

/-- The words of a line: runs of characters between blanks. -/
def wordsOf (s : String) : List String :=
  (s.splitOn " ").flatMap (fun w => w.splitOn "\t") |>.flatMap (fun w => w.splitOn "\n") |>.filter (!·.isEmpty)

/-- `wc`: counts of lines, words and bytes. -/
def wc (c : Call) : Done :=
  let (flags, ops) := splitOptions c.args
  let flags := if flags.isEmpty then ['l', 'w', 'c'] else flags
  let counts (t : String) : List Nat :=
    (if flags.contains 'l' then [(t.toList.filter (· == '\n')).length] else []) ++
    (if flags.contains 'w' then [(wordsOf t).length] else []) ++
    (if flags.contains 'm' then [t.length] else []) ++
    (if flags.contains 'c' then [t.utf8ByteSize] else [])
  let row (ns : List Nat) (name : Option String) : String :=
    let nums := ns.map toString
    let body := if ns.length == 1 && name.isNone then nums
      else nums.map fun n => String.ofList (List.replicate (7 - min 7 n.length) ' ') ++ n
    String.intercalate " " (body ++ name.toList) ++ "\n"
  if ops.isEmpty then c.say (row (counts c.input) none)
  else ops.foldl (fun d p =>
    match c.readArg p with
    | .ok t => { d with writes := d.writes ++ [(1, row (counts t) (some p))] }
    | .error e => { d with status := 1, writes := d.writes ++ [(2, "wc: " ++ p ++ ": " ++ faultText e ++ "\n")] })
    c.ok

/-- `sort`: lines in code-point order, with `-r` reversed, with `-u` once each. -/
def sort (c : Call) : Done :=
  let (flags, ops) := splitOptions c.args
  let texts := sources c ops
  match texts.find? fun (_, t) => match t with | .error _ => true | .ok _ => false with
  | some (name, .error e) => c.fail 2 ("cannot read: " ++ name ++ ": " ++ faultText e)
  | _ =>
    let lines := texts.flatMap fun (_, t) => textLines (t.toOption.getD "")
    let sorted := if flags.contains 'n' then
        Text.sortByKey (lines.map fun l => (l, l)) |>.map (·.1)
      else Text.sortStrings lines
    let sorted := if flags.contains 'u' then Text.dedupAdjacent sorted else sorted
    let sorted := if flags.contains 'r' then sorted.reverse else sorted
    c.say (unlines sorted)

/-- `uniq`: lines without their adjacent repeats. -/
def uniq (c : Call) : Done :=
  let (_, ops) := splitOptions c.args
  match c.readArg (ops.headD "-") with
  | .ok t => c.say (unlines (Text.dedupAdjacent (textLines t)))
  | .error e => c.fail 1 (ops.headD "-" ++ ": " ++ faultText e)

/-- `cut`: chosen fields of each line, split at a delimiter. -/
def cut (c : Call) : Done :=
  let (vals, _, ops) := optionValues ['d', 'f', 'c'] c.args
  let delim := ((vals.find? (·.1 == 'd')).map (·.2)).getD "\t"
  let fields := (((vals.find? (·.1 == 'f')).map (·.2)).getD "1").splitOn ","
    |>.filterMap fun f => f.toNat?
  match c.readArg (ops.headD "-") with
  | .ok t =>
    let pick (l : String) : String :=
      let parts := l.splitOn delim
      if parts.length == 1 then l
      else delim.intercalate (fields.filterMap fun i => parts[i - 1]?)
    c.say (unlines ((textLines t).map pick))
  | .error e => c.fail 1 (ops.headD "-" ++ ": " ++ faultText e)

/-- The characters of a `tr` set, ranges written out. -/
def trSet : List Char → List Char
  | a :: '-' :: b :: rest =>
    (List.range (b.toNat + 1 - a.toNat)).map (fun i => Char.ofNat (a.toNat + i)) ++ trSet rest
  | '\\' :: 'n' :: rest => '\n' :: trSet rest
  | '\\' :: 't' :: rest => '\t' :: trSet rest
  | ch :: rest => ch :: trSet rest
  | [] => []

/-- `tr`: replace or (with `-d`) delete characters of the input. -/
def tr (c : Call) : Done :=
  let (flags, ops) := splitOptions c.args
  match ops with
  | [s] =>
    if flags.contains 'd' then
      let set := trSet s.toList
      c.say (String.ofList (c.input.toList.filter fun ch => !set.contains ch))
    else c.fail 1 "missing operand"
  | [s, t] =>
    let from_ := trSet s.toList
    let to_ := trSet t.toList
    let mapped := c.input.toList.map fun ch =>
      match from_.idxOf? ch with
      | some i => (to_[i]?).getD (to_.getLast?.getD ch)
      | none => ch
    c.say (String.ofList mapped)
  | _ => c.fail 1 "missing operand\nTry 'tr --help' for more information."

/-- `tee`: copy the input to files and to the output. -/
def tee (c : Call) : Done :=
  let (flags, ops) := splitOptions c.args
  let d := eachOperand c ops fun t p =>
    let r := if flags.contains 'a' then t.appendBytes c.cwd p (bytesOf c.input)
      else t.writeBytes c.cwd p (bytesOf c.input)
    r.mapError fun e => p ++ ": " ++ faultText e
  { d with writes := (1, c.input) :: d.writes }

/-- `seq`: the numbers from the first to the last operand. -/
def seq (c : Call) : Done :=
  let nums := c.args.filterMap String.toInt?
  let (lo, hi) := match nums with
    | [n] => (1, n)
    | [a, b] => (a, b)
    | _ => (1, 0)
  let count := (hi - lo + 1).toNat
  c.say (unlines ((List.range count).map fun (i : Nat) => toString (lo + (i : Int))))

/-- One `sed` substitution, `s/pattern/replacement/flags`, with `&` standing
for the match. -/
structure Substitution where
  pattern : Regex
  replacement : List Char
  global : Bool
  print : Bool

/-- The parts of a `sed` command between its delimiters. -/
def delimited (d : Char) : List Char → List (List Char) → List Char → List (List Char)
  | [], acc, cur => acc ++ [cur]
  | '\\' :: ch :: rest, acc, cur =>
    if ch == d then delimited d rest acc (cur ++ [ch]) else delimited d rest acc (cur ++ ['\\', ch])
  | ch :: rest, acc, cur =>
    if ch == d then delimited d rest (acc ++ [cur]) [] else delimited d rest acc (cur ++ [ch])

/-- The replacement text for one match. -/
def replacementText (rep : List Char) (matched : List Char) : List Char :=
  match rep with
  | [] => []
  | '\\' :: ch :: rest => (if ch == 'n' then '\n' else ch) :: replacementText rest matched
  | '&' :: rest => matched ++ replacementText rest matched
  | ch :: rest => ch :: replacementText rest matched

/-- A line after a substitution, every match replaced when `global`. -/
def substituteLine (s : Substitution) (line : List Char) : List Char × Bool :=
  go (line.length + 1) 0 line []
where
  /-- Replace from character `i` on, `done` holding the text before it. -/
  go : Nat → Nat → List Char → List Char → List Char × Bool
    | 0, _, rest, done => (done ++ rest, false)
    | fuel + 1, i, rest, done =>
      let text := done ++ rest
      match (List.range (rest.length + 1)).findSome? (fun j =>
          (Regex.run (Regex.fuelFor text) s.pattern (i + j) (rest.drop j) fun p _ => some p).map
            fun e => (i + j, e)) with
      | none => (text, false)
      | some (st, en) =>
        let before := text.take st
        let matched := (text.drop st).take (en - st)
        let after := text.drop en
        let replaced := before ++ replacementText s.replacement matched
        if !s.global then (replaced ++ after, true)
        else if en == st then
          match after with
          | ch :: more => ((go fuel (en + 1) more (replaced ++ [ch])).1, true)
          | [] => (replaced, true)
        else ((go fuel en after replaced).1, true)

/-- `sed`: run a script of `s`, `d` and `p` commands over each line. -/
def sed (c : Call) : Done :=
  let (vals, flags, ops) := optionValues ['e'] c.args
  let (script, files) := match vals.find? (·.1 == 'e'), ops with
    | some (_, e), _ => (e, ops)
    | none, e :: rest => (e, rest)
    | none, [] => ("", [])
  let quiet := flags.contains 'n'
  let ext := flags.contains 'E' || flags.contains 'r'
  match script.toList with
  | 's' :: d :: body =>
    match delimited d body [] [] with
    | pat :: rep :: opts :: _ =>
      match Regex.parse (String.ofList pat) ext with
      | .error m => c.fail 1 ("-e expression #1, char " ++ toString script.length ++ ": " ++ m)
      | .ok re =>
        let sub : Substitution := ⟨re, rep, opts.contains 'g', opts.contains 'p'⟩
        let run (text : String) : String :=
          unlines ((textLines text).filterMap fun l =>
            let (out, hit) := substituteLine sub l.toList
            let shown := String.ofList out
            if quiet then (if hit && sub.print then some shown else none) else some shown)
        if flags.contains 'i' then
          eachOperand c files fun t p =>
            match c.readArg p with
            | .ok text => (t.writeBytes c.cwd p (bytesOf (run text))).mapError faultText
            | .error e => .error ("can't read " ++ p ++ ": " ++ faultText e)
        else
          (sources c files).foldl (fun dn (name, text) =>
            match text with
            | .ok t => { dn with writes := dn.writes ++ [(1, run t)] }
            | .error e => { dn with status := 2, writes := dn.writes ++ [(2, "sed: can't read " ++ name ++ ": " ++ faultText e ++ "\n")] })
            c.ok
    | _ => c.fail 1 ("-e expression #1, char " ++ toString script.length ++ ": unterminated `s' command")
  | _ => c.fail 1 ("-e expression #1, char 1: unknown command: `" ++ script.take 1 ++ "'")

end Provisioning.Shell
