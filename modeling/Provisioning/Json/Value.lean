/-!
JSON values and their two written forms.

Reports, inventories, manifests and plans are all written as JSON. A value
is null, a boolean, an integer, a string, an array or an object whose
fields keep the order they were given in. `compact` writes a value on one
line with no blanks; `pretty` puts every element and field on a line of
its own, indented by two spaces per level, and writes an empty array or
object as `[]` or `{}`. In strings, the quote, the backslash and the
controls below U+0020 are escaped (`\b`, `\t`, `\n`, `\f`, `\r`, otherwise
`\u00xx` in lowercase); everything else is written as it is.
-/

namespace Provisioning

/-- A JSON value; object fields keep their order. -/
inductive Json where
  | null
  | bool (b : Bool)
  | int (n : Int)
  | str (s : String)
  | arr (items : List Json)
  | obj (fields : List (String × Json))
  deriving Inhabited, Repr

namespace Json

/-- Two lowercase hexadecimal digits of a byte. -/
def hexByte (n : Nat) : String :=
  let digit (d : Nat) : Char := if d < 10 then Char.ofNat (48 + d) else Char.ofNat (87 + d)
  String.ofList [digit (n / 16 % 16), digit (n % 16)]

/-- The escaped form of one character inside a JSON string. -/
def escapeChar (c : Char) : String :=
  if c = '"' then "\\\""
  else if c = '\\' then "\\\\"
  else if c = '\n' then "\\n"
  else if c = '\r' then "\\r"
  else if c = '\t' then "\\t"
  else if c = '\x08' then "\\b"
  else if c = '\x0c' then "\\f"
  else if c.toNat < 0x20 then "\\u00" ++ hexByte c.toNat
  else c.toString

/-- A string written as a JSON string literal. -/
def quote (s : String) : String :=
  "\"" ++ String.join (s.toList.map escapeChar) ++ "\""

/-- An integer in decimal, with a minus sign when negative. -/
def intText (n : Int) : String :=
  match n with
  | .ofNat k => toString k
  | .negSucc k => "-" ++ toString (k + 1)

mutual

/-- The one-line form of a value. -/
def compact : Json → String
  | .null => "null"
  | .bool true => "true"
  | .bool false => "false"
  | .int n => intText n
  | .str s => quote s
  | .arr items => "[" ++ compactItems items ++ "]"
  | .obj fields => "\x7b" ++ compactFields fields ++ "\x7d"

/-- The elements of an array, comma-separated. -/
def compactItems : List Json → String
  | [] => ""
  | [j] => compact j
  | j :: rest => compact j ++ "," ++ compactItems rest

/-- The fields of an object, comma-separated. -/
def compactFields : List (String × Json) → String
  | [] => ""
  | [(k, v)] => quote k ++ ":" ++ compact v
  | (k, v) :: rest => quote k ++ ":" ++ compact v ++ "," ++ compactFields rest

end

/-- Two spaces per level of nesting. -/
def indent (level : Nat) : String :=
  String.ofList (List.replicate (2 * level) ' ')

mutual

/-- The indented form of a value nested `level` deep. -/
def prettyAt (level : Nat) : Json → String
  | .arr [] => "[]"
  | .obj [] => "\x7b\x7d"
  | .arr items => "[\n" ++ prettyItems (level + 1) items ++ "\n" ++ indent level ++ "]"
  | .obj fields => "\x7b\n" ++ prettyFields (level + 1) fields ++ "\n" ++ indent level ++ "\x7d"
  | j => compact j

/-- The elements of an array, one per line. -/
def prettyItems (level : Nat) : List Json → String
  | [] => ""
  | [j] => indent level ++ prettyAt level j
  | j :: rest => indent level ++ prettyAt level j ++ ",\n" ++ prettyItems level rest

/-- The fields of an object, one per line. -/
def prettyFields (level : Nat) : List (String × Json) → String
  | [] => ""
  | [(k, v)] => indent level ++ quote k ++ ": " ++ prettyAt level v
  | (k, v) :: rest =>
    indent level ++ quote k ++ ": " ++ prettyAt level v ++ ",\n" ++ prettyFields level rest

end

/-- The indented form of a value. -/
def pretty (j : Json) : String := prettyAt 0 j

mutual

/-- Apply a function to every string of a value, object keys included. -/
def mapStrings (f : String → String) : Json → Json
  | .null => .null
  | .bool b => .bool b
  | .int n => .int n
  | .str s => .str (f s)
  | .arr items => .arr (mapStringsItems f items)
  | .obj fields => .obj (mapStringsFields f fields)

/-- `mapStrings` on each element. -/
def mapStringsItems (f : String → String) : List Json → List Json
  | [] => []
  | j :: rest => mapStrings f j :: mapStringsItems f rest

/-- `mapStrings` on each field, key and value. -/
def mapStringsFields (f : String → String) : List (String × Json) → List (String × Json)
  | [] => []
  | (k, v) :: rest => (f k, mapStrings f v) :: mapStringsFields f rest

end

/-- A list of strings as an array. -/
def strs (xs : List String) : Json := .arr (xs.map .str)

/-- A natural number. -/
def nat (n : Nat) : Json := .int n

/-- A value or null. -/
def opt {α : Type} (f : α → Json) : Option α → Json
  | none => .null
  | some a => f a

example : compact (.arr []) = "[]" := by decide

example : pretty (.obj []) = "\x7b\x7d" := by decide

end Json

end Provisioning
