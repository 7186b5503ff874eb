import Provisioning.Json.Value
/-!
# Writing TOML

A document given as an object is written as TOML: first the plain entries of
the root (`key = value`, one per line), then each non-empty table under a
`[path]` header preceded by a blank line. A table holding only other tables
gets no header of its own; an empty table is written as a bare header. Null
entries are left out, since TOML has no null.

Strings are written in double quotes with escapes (`\"`, `\\`, `\b`, `\t`,
`\f`, `\r`, and `\uXXXX` for other controls), except that a string holding a
backslash, and nothing that would need escaping in single quotes, is written
in single quotes (`'C:\dir'`), or in triple single quotes when it holds a
single quote. A string holding a line break is written over several lines
between triple quotes.

An array with two or more elements puts each on a line of its own, indented
by four spaces and followed by a comma; shorter arrays stay on one line.

TOML integers are signed 64-bit: a document holding a larger integer is refused.
-/

namespace Provisioning.Toml

/-- Whether a key can be written bare. -/
def isBareKey (k : String) : Bool :=
  !k.isEmpty && k.all fun c => c.isAlphanum || c == '-' || c == '_'

/-- How a string is best written: whether it needs triple quotes (it spans lines, or holds
a single quote in single quotes), and whether single quotes can hold it as it is. -/
structure StringForm where
  multiline : Bool
  triple : Bool
  literal : Bool

/-- Decide how to write a string. Single quotes are chosen only for a string with a
backslash, no control character other than tab, no run of three single quotes, and no
single quote at its end. -/
def StringForm.of (s : String) : StringForm :=
  let cs := s.toList
  let multiline := cs.contains '\n'
  let controls := cs.any fun c => c.toNat ≤ 0x1F && c != '\t' && c != '\n'
  let rec longestRun : List Char → Nat → Nat → Nat
    | [], run, best => max run best
    | c :: r, run, best => if c == '\'' then longestRun r (run + 1) best else longestRun r 0 (max run best)
  let run := longestRun cs 0 0
  let literal := cs.contains '\\' && !controls && run < 3 && !(cs.getLast? == some '\'')
  { multiline, triple := literal && !multiline && run ≥ 1, literal }

/-- One character inside double quotes. -/
def escapeChar (multiline : Bool) (c : Char) : String :=
  let hex4 (n : Nat) : String :=
    let digit (d : Nat) : Char := if d < 10 then Char.ofNat (48 + d) else Char.ofNat (55 + d)
    String.ofList [digit (n / 4096 % 16), digit (n / 256 % 16), digit (n / 16 % 16), digit (n % 16)]
  match c with
  | '\x08' => "\\b"
  | '\t' => "\\t"
  | '\n' => if multiline then "\n" else "\\n"
  | '\x0c' => "\\f"
  | '\r' => "\\r"
  | '"' => "\\\""
  | '\\' => "\\\\"
  | _ => if c.toNat ≤ 0x1F || c.toNat == 0x7F then "\\u" ++ hex4 c.toNat else c.toString

/-- A string as a TOML string. -/
def quoteString (s : String) : String :=
  let f := StringForm.of s
  if f.literal then
    if f.multiline then "'''\n" ++ s ++ "'''"
    else if f.triple then "'''" ++ s ++ "'''"
    else "'" ++ s ++ "'"
  else
    let body := String.join (s.toList.map (escapeChar f.multiline))
    if f.multiline then "\"\"\"\n" ++ body ++ "\"\"\"" else "\"" ++ body ++ "\""

/-- A key, bare when it can be. -/
def keyText (k : String) : String :=
  if isBareKey k then k else "\"" ++ String.join (k.toList.map (escapeChar false)) ++ "\""

mutual

/-- A value written inline. -/
def inline : Json → String
  | .null => ""
  | .bool b => if b then "true" else "false"
  | .int n => Json.intText n
  | .str s => quoteString s
  | .arr items =>
    if items.length ≤ 1 then "[" ++ inlineItems items ++ "]"
    else "[" ++ multilineItems items ++ "\n]"
  | .obj fields => "\x7b " ++ inlineFields fields ++ " \x7d"

/-- Array elements on one line. -/
def inlineItems : List Json → String
  | [] => ""
  | [j] => inline j
  | j :: rest => inline j ++ ", " ++ inlineItems rest

/-- Array elements on lines of their own. -/
def multilineItems : List Json → String
  | [] => ""
  | j :: rest => "\n    " ++ inline j ++ "," ++ multilineItems rest

/-- Inline table entries. -/
def inlineFields : List (String × Json) → String
  | [] => ""
  | [(k, v)] => keyText k ++ " = " ++ inline v
  | (k, v) :: rest => keyText k ++ " = " ++ inline v ++ ", " ++ inlineFields rest

end

/-- Whether a value is written as a table of its own. -/
def isTable : Json → Bool
  | .obj _ => true
  | _ => false

/-- The plain entries of a table, one per line; nulls and tables are left out. -/
def entryLines (fields : List (String × Json)) : String :=
  String.join (fields.filterMap fun (k, v) =>
    match v with
    | .null | .obj _ => none
    | _ => some (keyText k ++ " = " ++ inline v ++ "\n"))

/-- The tables under a table, each with its header when it has plain entries (or none at
all), in order, depth first. `first` tells whether nothing has been written yet. -/
def tables : Nat → List String → List (String × Json) → Bool → String × Bool
  | 0, _, _, first => ("", first)
  | fuel + 1, path, fields, first =>
    fields.foldl (fun (out, first) (k, v) =>
      match v with
      | .obj sub =>
        let p := path ++ [k]
        let plain := sub.filter fun (_, x) => !isTable x && !(match x with | .null => true | _ => false)
        let visible := plain.length > 0 || sub.isEmpty
        let (out, first) := if visible then
            (out ++ (if first then "" else "\n") ++ "[" ++ ".".intercalate (p.map keyText) ++ "]\n" ++ entryLines sub, false)
          else (out, first)
        let (inner, first) := tables fuel p sub first
        (out ++ inner, first)
      | _ => (out, first)) ("", first)

/-- A document written as TOML. -/
def write (doc : Json) : String :=
  match doc with
  | .obj fields =>
    let root := entryLines fields
    root ++ (tables 32 [] fields root.isEmpty).1
  | _ => ""

/-- The largest TOML integer: TOML integers are signed 64-bit. -/
def maxInteger : Int := 9223372036854775807

mutual

/-- Whether every integer in a value fits in a TOML integer. -/
def fits : Json → Bool
  | .int n => n ≤ maxInteger
  | .arr items => fitsItems items
  | .obj fields => fitsFields fields
  | _ => true

/-- Whether every integer in a list of values fits in a TOML integer. -/
def fitsItems : List Json → Bool
  | [] => true
  | j :: rest => fits j && fitsItems rest

/-- Whether every integer in the values of a table fits in a TOML integer. -/
def fitsFields : List (String × Json) → Bool
  | [] => true
  | (_, v) :: rest => fits v && fitsFields rest

end

/-- A document as TOML text, refused when it holds an integer past the largest TOML
integer: such a value can only be an unsigned 64-bit one. -/
def render (doc : Json) : Except String String :=
  if fits doc then .ok (write doc) else .error "out-of-range value for u64 type"

end Provisioning.Toml
