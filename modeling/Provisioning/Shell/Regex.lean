import Provisioning.Shell.Pattern

/-!
# Regular expressions of the text utilities

The basic and extended regular expressions that `grep`, `sed` and `awk` read.
Both have `.`, bracket expressions, `^`, `$` and `*`; the extended form has `+`,
`?`, `|` and groups as plain characters, the basic form writes them `\+`, `\?`,
`\|`, `\(` and `\)`. Matching backtracks, trying a longer repetition first,
and reports where the first match found ends.
-/

namespace Provisioning.Shell

/-- A regular expression. -/
inductive Regex where
  /-- The empty text. -/
  | empty
  /-- This character. -/
  | char (c : Char)
  /-- Any one character. -/
  | any
  /-- One character from a set of ranges, or, when `negated`, one outside it. -/
  | set (negated : Bool) (ranges : List (Char × Char))
  /-- The start of the line. -/
  | lineStart
  /-- The end of the line. -/
  | lineEnd
  /-- One expression after the other. -/
  | seq (a b : Regex)
  /-- Either expression. -/
  | alt (a b : Regex)
  /-- Any number of repetitions. -/
  | star (a : Regex)
  deriving Repr, Inhabited

namespace Regex

/-- Match at a position (`pos` characters into the line), handing every way the
expression can end to `k`; the first end that `k` accepts is the answer. -/
def run : Nat → Regex → Nat → List Char → (Nat → List Char → Option Nat) → Option Nat
  | 0, _, _, _, _ => none
  | _ + 1, .empty, p, s, k => k p s
  | _ + 1, .char c, p, d :: s, k => if c == d then k (p + 1) s else none
  | _ + 1, .char _, _, [], _ => none
  | _ + 1, .any, p, _ :: s, k => k (p + 1) s
  | _ + 1, .any, _, [], _ => none
  | _ + 1, .set negated ranges, p, d :: s, k =>
    if inRanges ranges d != negated then k (p + 1) s else none
  | _ + 1, .set .., _, [], _ => none
  | _ + 1, .lineStart, p, s, k => if p == 0 then k p s else none
  | _ + 1, .lineEnd, p, s, k => if s.isEmpty then k p s else none
  | fuel + 1, .seq a b, p, s, k => run fuel a p s fun p' s' => run fuel b p' s' k
  | fuel + 1, .alt a b, p, s, k => (run fuel a p s k).orElse fun _ => run fuel b p s k
  | fuel + 1, .star a, p, s, k =>
    (run fuel a p s fun p' s' => if p' == p then none else run fuel (.star a) p' s' k).orElse
      fun _ => k p s

/-- Fuel enough for a line: each step of a match reads a character or a node. -/
def fuelFor (s : List Char) : Nat := 64 * (s.length + 2) * (s.length + 2)

/-- The first match in a line: where it starts and where it ends. -/
def find? (re : Regex) (line : List Char) : Option (Nat × Nat) :=
  (List.range (line.length + 1)).findSome? fun i =>
    (run (fuelFor line) re i (line.drop i) fun p _ => some p).map fun e => (i, e)

/-- Whether the expression matches somewhere in the line. -/
def test (re : Regex) (line : String) : Bool := (re.find? line.toList).isSome

/-- Whether the expression matches the whole line. -/
def testWhole (re : Regex) (line : String) : Bool :=
  let s := line.toList
  (run (fuelFor s) re 0 s fun p rest => if rest.isEmpty then some p else none).isSome

/-- The expression that matches a text literally. -/
def literal (s : String) : Regex :=
  s.toList.foldr (fun c r => .seq (.char c) r) .empty

end Regex

/-- The ranges of a named character class, such as `alpha` in `[[:alpha:]]`. -/
def classRanges : String → List (Char × Char)
  | "alpha" => [('a', 'z'), ('A', 'Z')]
  | "digit" => [('0', '9')]
  | "alnum" => [('a', 'z'), ('A', 'Z'), ('0', '9')]
  | "upper" => [('A', 'Z')]
  | "lower" => [('a', 'z')]
  | "space" => [(' ', ' '), ('\t', '\r')]
  | "blank" => [(' ', ' '), ('\t', '\t')]
  | "punct" => [('!', '/'), (':', '@'), ('[', '`'), ('{', '~')]
  | "xdigit" => [('0', '9'), ('a', 'f'), ('A', 'F')]
  | _ => []

/-- The ranges of a bracket expression after its opening bracket (and `^`), up
to the closing bracket, and the text after it; each step reads a character,
so fuel of the text's length is enough. -/
def bracketBody : Nat → List Char → List (Char × Char) → Bool → Option (List (Char × Char) × List Char)
  | 0, _, _, _ => none
  | _ + 1, [], _, _ => none
  | _ + 1, ']' :: rest, acc, false => some (acc, rest)
  | fuel + 1, '[' :: ':' :: rest, acc, _ =>
    let (name, after) := rest.span (· != ':')
    match after with
    | ':' :: ']' :: more => bracketBody fuel more (acc ++ classRanges (String.ofList name)) false
    | _ => bracketBody fuel (':' :: rest) (acc ++ [('[', '[')]) false
  | fuel + 1, lo :: '-' :: hi :: rest, acc, _ =>
    if hi == ']' then some (acc ++ [(lo, lo), ('-', '-')], rest)
    else bracketBody fuel rest (acc ++ [(lo, hi)]) false
  | fuel + 1, c :: rest, acc, _ => bracketBody fuel rest (acc ++ [(c, c)]) false

/-- One element with its repetition marks applied. -/
def Regex.repeated (r : Regex) : List Char → Bool → Regex × List Char
  | '*' :: rest, ext => Regex.repeated (.star r) rest ext
  | '+' :: rest, true => Regex.repeated (.seq r (.star r)) rest true
  | '?' :: rest, true => Regex.repeated (.alt r .empty) rest true
  | '\\' :: '+' :: rest, false => Regex.repeated (.seq r (.star r)) rest false
  | '\\' :: '?' :: rest, false => Regex.repeated (.alt r .empty) rest false
  | rest, _ => (r, rest)

mutual

/-- Alternatives up to the end of a group or of the text. -/
def parseAlternatives (fuel : Nat) (ext : Bool) (cs : List Char) : Except String (Regex × List Char) :=
  match fuel with
  | 0 => .error "expression too deep"
  | fuel + 1 => do
    let (first, rest) ← parseSequence fuel ext cs .empty true
    match ext, rest with
    | true, '|' :: more => do
      let (second, rest) ← parseAlternatives fuel ext more
      .ok (.alt first second, rest)
    | false, '\\' :: '|' :: more => do
      let (second, rest) ← parseAlternatives fuel ext more
      .ok (.alt first second, rest)
    | _, _ => .ok (first, rest)

/-- Elements one after another, up to `|` or the end of a group. -/
def parseSequence (fuel : Nat) (ext : Bool) (cs : List Char) (acc : Regex) (atStart : Bool) :
    Except String (Regex × List Char) :=
  match fuel with
  | 0 => .error "expression too deep"
  | fuel + 1 =>
    let add (r : Regex) (rest : List Char) : Except String (Regex × List Char) :=
      let (r, rest) := r.repeated rest ext
      parseSequence fuel ext rest (.seq acc r) false
    match ext, cs with
    | _, [] => .ok (acc, [])
    | true, '|' :: _ => .ok (acc, cs)
    | true, ')' :: _ => .ok (acc, cs)
    | false, '\\' :: '|' :: _ => .ok (acc, cs)
    | false, '\\' :: ')' :: _ => .ok (acc, cs)
    | true, '(' :: rest => do
      let (inner, rest) ← parseAlternatives fuel ext rest
      match rest with
      | ')' :: rest => add inner rest
      | _ => .error "Unmatched ( or \\("
    | false, '\\' :: '(' :: rest => do
      let (inner, rest) ← parseAlternatives fuel ext rest
      match rest with
      | '\\' :: ')' :: rest => add inner rest
      | _ => .error "Unmatched ( or \\("
    | _, '^' :: rest =>
      if atStart || ext then parseSequence fuel ext rest (.seq acc .lineStart) atStart
      else add (.char '^') rest
    | _, '$' :: rest =>
      let last := match ext, rest with
        | _, [] => true
        | true, '|' :: _ | true, ')' :: _ => true
        | false, '\\' :: '|' :: _ | false, '\\' :: ')' :: _ => true
        | _, _ => false
      if last || ext then parseSequence fuel ext rest (.seq acc .lineEnd) false
      else add (.char '$') rest
    | _, '.' :: rest => add .any rest
    | _, '[' :: rest =>
      let (negated, body) := match rest with
        | '^' :: b => (true, b)
        | b => (false, b)
      match bracketBody (body.length + 1) body [] true with
      | some (ranges, rest) => add (.set negated ranges) rest
      | none => .error "Unmatched [, [^, [:, [., or [="
    | _, '*' :: rest => if atStart then add (.char '*') rest else add (.char '*') rest
    | _, '\\' :: c :: rest =>
      match c with
      | 'n' => add (.char '\n') rest
      | 't' => add (.char '\t') rest
      | 'w' => add (.set false (('_', '_') :: classRanges "alnum")) rest
      | 's' => add (.set false (classRanges "space")) rest
      | _ => add (.char c) rest
    | _, c :: rest => add (.char c) rest

end

/-- Read a regular expression, basic or (with `ext`) extended. -/
def Regex.parse (text : String) (ext : Bool) : Except String Regex := do
  let cs := text.toList
  let (r, rest) ← parseAlternatives (4 * cs.length + 8) ext cs
  if rest.isEmpty then .ok r else .error "Unmatched ) or \\)"

end Provisioning.Shell
