import Provisioning.Json.Value
import Provisioning.Config.Yaml.Document
/-!
# Writing YAML

A document is written in block style: a mapping puts each entry on a line
of its own (`key: value`), a nested mapping goes on the following lines
indented by two more spaces, and a sequence puts each element on a line
starting with `- `, at the indentation of the key it belongs to. Empty
collections are written `[]` and `{}`, and null is `null`.

A string is written plain when it reads back as the same string: not empty,
not spelling null, a boolean or a number (nor digits with a leading zero),
with no leading or trailing blank, no line break, and no indicator that
would change its meaning (such as a leading `-`, `:`, `#` or quote, `: ` or
` #` inside, or a leading `---`). Otherwise it is written in single quotes
(a quote doubled) when nothing in it needs an escape, and in double quotes
with escapes when it holds controls or other characters that cannot stand
as they are. A string with line breaks is written as a literal block
(`|`), unless it ends in a blank, which needs double quotes.
-/

namespace Provisioning.Yaml

/-- Whether a character may stand as it is in a YAML text written by this writer. -/
def isPrintable (c : Char) : Bool :=
  let n := c.toNat
  n == 0x0A || (0x20 ≤ n && n ≤ 0x7E) || (0xA0 ≤ n && n ≤ 0xD7FF) ||
    (0xE000 ≤ n && n ≤ 0xFFFD && n != 0xFEFF)

/-- What a string's characters allow. -/
structure ScalarChoice where
  plain : Bool
  single : Bool
  block : Bool
  multiline : Bool

/-- Which styles can hold a string, from its characters. -/
def ScalarChoice.of (s : String) : ScalarChoice :=
  let cs := s.toList
  if cs.isEmpty then { plain := true, single := true, block := false, multiline := false } else
  let blankz (i : Nat) : Bool := match cs[i]? with
    | some c => isBlank c || isBreak c
    | none => true
  let docMark := (cs.take 3 == ['-', '-', '-']) || (cs.take 3 == ['.', '.', '.'])
  let indexed := cs.zipIdx
  let blockIndicator := docMark || indexed.any fun (c, i) =>
    if i == 0 then
      "#,[]\x7b\x7d&*!|>'\"%@`".toList.contains c ||
        ((c == '?' || c == ':') && blankz 1) || (c == '-' && blankz 1)
    else
      (c == ':' && blankz (i + 1)) || (c == '#' && (cs[i - 1]?).any fun p => isBlank p || isBreak p)
  let special := cs.any fun c => !isPrintable c
  let lineBreaks := cs.any isBreak
  let isSpace (c : Char) : Bool := c == ' '
  let leadingSpace := cs.head?.any isSpace
  let leadingBreak := cs.head?.any isBreak
  let trailingSpace := cs.getLast?.any isSpace
  let trailingBreak := cs.getLast?.any isBreak
  let pairs := cs.zip (cs.drop 1)
  let breakSpace := pairs.any fun (a, b) => isBreak a && isSpace b
  let spaceBreak := pairs.any fun (a, b) => isSpace a && isBreak b
  let plain := !(leadingSpace || leadingBreak || trailingSpace || trailingBreak || breakSpace ||
    spaceBreak || special || lineBreaks || blockIndicator)
  let single := !(breakSpace || spaceBreak || special)
  let block := !(trailingSpace || spaceBreak || special)
  { plain, single, block, multiline := lineBreaks }

/-- A string in single quotes. -/
def singleQuoted (s : String) : String :=
  "'" ++ String.join (s.toList.map fun c => if c == '\'' then "''" else c.toString) ++ "'"

/-- A string in double quotes, with escapes for what cannot stand as it is. -/
def doubleQuoted (s : String) : String :=
  let hex (width n : Nat) : String :=
    let digit (d : Nat) : Char := if d < 10 then Char.ofNat (48 + d) else Char.ofNat (55 + d)
    String.ofList ((List.range width).reverse.map fun k => digit (n / Nat.pow 16 k % 16))
  let esc (c : Char) : String :=
    let n := c.toNat
    if !isPrintable c || n == 0xFEFF || isBreak c || c == '"' || c == '\\' then
      match n with
      | 0 => "\\0"
      | 7 => "\\a"
      | 8 => "\\b"
      | 9 => "\\t"
      | 10 => "\\n"
      | 11 => "\\v"
      | 12 => "\\f"
      | 13 => "\\r"
      | 27 => "\\e"
      | 34 => "\\\""
      | 92 => "\\\\"
      | 0x85 => "\\N"
      | 0xA0 => "\\_"
      | 0x2028 => "\\L"
      | 0x2029 => "\\P"
      | _ => if n ≤ 0xFF then "\\x" ++ hex 2 n else if n ≤ 0xFFFF then "\\u" ++ hex 4 n else "\\U" ++ hex 8 n
    else c.toString
  "\"" ++ String.join (s.toList.map esc) ++ "\""

/-- A string as a literal block whose lines are indented by `indent` spaces, ending with a
line break; the header says how the end is kept (`-` no final break, none for one, `+` for
more) and gives the indentation when the text starts with a blank or a break. -/
def literalBlock (s : String) (indent : Nat) : String :=
  let cs := s.toList
  let hint := if cs.head?.any (fun c => isBlank c || isBreak c) then "2" else ""
  let chomp :=
    match cs.reverse with
    | [] => "-"
    | c :: rest =>
      if !isBreak c then "-"
      else if rest.isEmpty then "+"
      else if rest.head?.any isBreak then "+" else ""
  let pad := String.ofList (List.replicate indent ' ')
  let lines := s.splitOn "\n"
  let body := String.join (lines.zipIdx.map fun (l, i) =>
    (if l.isEmpty then "" else pad ++ l) ++ (if i + 1 == lines.length then "" else "\n"))
  "|" ++ hint ++ chomp ++ "\n" ++ (if body.endsWith "\n" then body else body ++ "\n")

/-- A string value at a place whose continuation lines are indented by `indent`. -/
def stringText (s : String) (indent : Nat) : String :=
  let choice := ScalarChoice.of s
  let resolvesOther := match plainFound s with
    | .str _ => false
    | _ => true
  if s.contains '\n' then
    if choice.block then literalBlock s indent else doubleQuoted s
  else if resolvesOther || digitsButNotNumber s then
    if choice.single then singleQuoted s else doubleQuoted s
  else if choice.plain then s
  else if choice.single then singleQuoted s
  else doubleQuoted s

/-- A scalar value. -/
def scalarText (j : Json) (indent : Nat) : String :=
  match j with
  | .null => "null"
  | .bool b => if b then "true" else "false"
  | .int n => Json.intText n
  | .str s => stringText s indent
  | .arr _ => "[]"
  | .obj _ => "\x7b\x7d"

/-- A scalar value and the end of its line. -/
def scalarLine (j : Json) (indent : Nat) : String :=
  let t := scalarText j indent
  if t.endsWith "\n" then t else t ++ "\n"

/-- Spaces for an indentation. -/
def pad (n : Nat) : String := String.ofList (List.replicate n ' ')

/-- Whether a value is a non-empty collection, written on lines below its key. -/
def isNested : Json → Bool
  | .arr (_ :: _) => true
  | .obj (_ :: _) => true
  | _ => false

mutual

/-- The entries of a mapping at an indentation, each on its own line. -/
def mappingLines (fuel : Nat) (indent : Nat) : List (String × Json) → String
  | [] => ""
  | (k, v) :: rest =>
    pad indent ++ stringText k indent ++ ":" ++ valueAfterKey fuel indent v ++ mappingLines fuel indent rest

/-- What follows a key's colon: a scalar on the same line, or a collection on the lines
below. -/
def valueAfterKey (fuel : Nat) (indent : Nat) (v : Json) : String :=
  match fuel with
  | 0 => "\n"
  | fuel + 1 =>
    match v with
    | .obj fields@(_ :: _) => "\n" ++ mappingLines fuel (indent + 2) fields
    | .arr items@(_ :: _) => "\n" ++ sequenceLines fuel indent items
    | _ => " " ++ scalarLine v (indent + 2)

/-- The elements of a sequence at an indentation, each after `- `. -/
def sequenceLines (fuel : Nat) (indent : Nat) : List Json → String
  | [] => ""
  | v :: rest =>
    let item := match fuel with
      | 0 => "\n"
      | fuel + 1 =>
        match v with
        | .obj ((k, x) :: more) =>
          " " ++ stringText k (indent + 2) ++ ":" ++ valueAfterKey fuel (indent + 2) x ++
            mappingLines fuel (indent + 2) more
        | .arr items@(_ :: _) => "\n" ++ sequenceLines fuel (indent + 2) items
        | _ => " " ++ scalarLine v (indent + 2)
    pad indent ++ "-" ++ item ++ sequenceLines fuel indent rest

end

/-- A document written as YAML. -/
def write (doc : Json) : String :=
  match doc with
  | .obj fields@(_ :: _) => mappingLines 32 0 fields
  | .arr items@(_ :: _) => sequenceLines 32 0 items
  | j => scalarLine j 2

end Provisioning.Yaml
