import Provisioning.Number.Shortest
import Provisioning.Text.Debug
/-!
Shapes of configuration data and the values read against them.

Manifests, host listings and configuration files are read against a
`Shape`: what each place of the document must hold. A reader of any format
(JSON, TOML, YAML) walks the document and the shape together and produces a
`Datum`, or a message saying what it found and what the shape expected.
The wording of those messages is shared: `Shape.expecting` names what a
shape wants ("a boolean", "struct Seeding", "u64") and `Found` names what
was there ("integer `5`", "string \"a\"", "sequence").

A record lists its fields in declaration order. A field is either required
or may be left out; a left-out field that may be absent simply does not
appear in the resulting `Datum.record`, and the typed reader that consumes
the datum fills in the field's default.
-/

namespace Provisioning

/-- What a reader expects at a place of a document. -/
inductive Shape where
  /-- `true` or `false`. -/
  | flag
  /-- A string; `what` is how messages name it ("a string", "path string"). -/
  | text (what : String)
  /-- An unsigned 64-bit integer. -/
  | count
  /-- A sequence of items of one shape. -/
  | list (item : Shape)
  /-- Null, or a value of the inner shape. -/
  | maybe (inner : Shape)
  /-- One of a fixed set of names, written as a string. -/
  | choice (name : String) (options : List String)
  /-- A record: its name, and its fields in order with whether each may be left out. -/
  | record (name : String) (fields : List (String × Shape × Bool))
  /-- Anything at all; the value is skipped. -/
  | any
  deriving Inhabited

/-- A value read against a shape. -/
inductive Datum where
  | flag (b : Bool)
  | text (s : String)
  | count (n : Nat)
  | list (items : List Datum)
  | none
  | some (d : Datum)
  | choice (option : String)
  /-- The fields that were present, in the order they were read. -/
  | record (fields : List (String × Datum))
  | skipped
  deriving Inhabited

/-- What was found where a shape expected something else. -/
inductive Found where
  | bool (b : Bool)
  | unsigned (n : Nat)
  | signed (n : Int)
  | float (f : Float)
  | str (s : String)
  | unit
  | seq
  | map
  | other (what : String)

namespace Shape

/-- How messages name what a shape expects. -/
def expecting : Shape → String
  | .flag => "a boolean"
  | .text what => what
  | .count => "u64"
  | .list _ => "a sequence"
  | .maybe _ => "option"
  | .choice name _ => "enum " ++ name
  | .record name _ => "struct " ++ name
  | .any => "any value"

/-- Whether a value may be null or absent in place of this shape. -/
def isMaybe : Shape → Bool
  | .maybe _ => true
  | _ => false

/-- The number of fields of a record shape. -/
def fieldCount : Shape → Nat
  | .record _ fields => fields.length
  | _ => 0

end Shape

/-- How a JSON reader and the shared messages write a float that was found. -/
def Found.floatText (f : Float) : String := Number.shortest f

namespace Found

/-- How messages name what was found; `unitWord` is the word for an empty value ("null"
or "unit value"). -/
def describe (unitWord : String) : Found → String
  | .bool b => "boolean `" ++ (if b then "true" else "false") ++ "`"
  | .unsigned n => "integer `" ++ toString n ++ "`"
  | .signed n => "integer `" ++ (if n < 0 then "-" ++ toString n.natAbs else toString n.natAbs) ++ "`"
  | .float f => "floating point `" ++ floatText f ++ "`"
  | .str s => "string " ++ Text.quoted s
  | .unit => unitWord
  | .seq => "sequence"
  | .map => "map"
  | .other what => what

end Found

/-- The message for a value of the wrong kind. -/
def invalidType (unitWord : String) (found : Found) (shape : Shape) : String :=
  "invalid type: " ++ found.describe unitWord ++ ", expected " ++ shape.expecting

/-- The message for a value of the right kind outside the allowed range. -/
def invalidValue (unitWord : String) (found : Found) (what : String) : String :=
  "invalid value: " ++ found.describe unitWord ++ ", expected " ++ what

/-- The list of allowed names in an unknown-name message. -/
def oneOf : List String → String
  | [] => ""
  | [a] => "`" ++ a ++ "`"
  | [a, b] => "`" ++ a ++ "` or `" ++ b ++ "`"
  | names => "one of " ++ String.intercalate ", " (names.map fun n => "`" ++ n ++ "`")

/-- The message for a name that is not one of the allowed options. -/
def unknownVariant (name : String) (options : List String) : String :=
  if options.isEmpty then "unknown variant `" ++ name ++ "`, there are no variants"
  else "unknown variant `" ++ name ++ "`, expected " ++ oneOf options

/-- The message for a required field that is absent. -/
def missingField (field : String) : String :=
  "missing field `" ++ field ++ "`"

/-- The message for a field given twice. -/
def duplicateField (field : String) : String :=
  "duplicate field `" ++ field ++ "`"

/-- The message for a record written as a sequence that is too short. -/
def invalidLength (len : Nat) (shape : Shape) : String :=
  "invalid length " ++ toString len ++ ", expected " ++ shape.expecting ++ " with " ++
    toString shape.fieldCount ++ (if shape.fieldCount = 1 then " element" else " elements")

namespace Datum

/-- The value of a field of a record datum, if present. -/
def field? (d : Datum) (key : String) : Option Datum :=
  match d with
  | .record fields => fields.lookup key
  | _ => Option.none

/-- The string of a text datum. -/
def text? : Datum → Option String
  | .text s => Option.some s
  | _ => Option.none

/-- The flag of a boolean datum. -/
def flag? : Datum → Option Bool
  | .flag b => Option.some b
  | _ => Option.none

/-- The number of a count datum. -/
def count? : Datum → Option Nat
  | .count n => Option.some n
  | _ => Option.none

/-- The strings of a list of text data. -/
def texts? : Datum → Option (List String)
  | .list items => items.mapM text?
  | _ => Option.none

end Datum

end Provisioning
