import Provisioning.Config.Toml.Syntax
import Provisioning.Data.Shape
/-!
# TOML documents read against a shape

A document read by `Toml.parse` is walked together with a `Shape`. Tables
are records whose fields are looked up by name (other names are ignored), and
arrays are records whose fields are taken by position. A choice is a string
naming one of its options, or a table with one entry whose key names the
option and whose value is empty. TOML has no null, so an optional value is
always present when written. A date or time reads as a table that has none of
a record's fields.

A complaint points at the value it is about, or at its key when the value has
no place of its own (a table made by a dotted key or by a longer header),
and knows the keys leading to it. Shown to users, it quotes the line with
carets under the place, then says what is wrong:

```
TOML parse error at line 2, column 16
  |
2 | timeout_secs = -1
  |                ^^
invalid value: integer `-1`, expected u64
```

Syntax errors have the same form, with one caret at the place reading
stopped.
-/

namespace Provisioning.Toml

/-- What is wrong with a document: the message, the place it is about, and the keys leading
to that place from the root. -/
structure Complaint where
  message : String
  span : Option Span := none
  keys : List String := []
  deriving Inhabited

namespace Complaint

/-- Give the complaint a place, unless it has one. -/
def at? (sp : Option Span) (c : Complaint) : Complaint :=
  { c with span := c.span.orElse fun _ => sp }

/-- Put a key in front of the keys leading to the place. -/
def under (k : String) (c : Complaint) : Complaint := { c with keys := k :: c.keys }

end Complaint

namespace Item

/-- Where an item stands, when it has a place of its own. -/
def span? : Item → Option Span
  | .value v => some v.span
  | .table _ _ _ sp => sp
  | .tables _ => none

/-- The name of an item's type. -/
def typeName : Item → String
  | .value v => v.typeName
  | .table .. => "table"
  | .tables _ => "array of tables"

/-- The entries of a table or an inline table. -/
def entries? : Item → Option (List (String × Span × Item))
  | .value (.inline es _ _) => some (es.map fun (k, ks, v) => (k, ks, .value v))
  | .table es _ _ _ => some es
  | _ => none

/-- The elements of an array or an array of tables. -/
def elements? : Item → Option (List Item)
  | .value (.arr vs _) => some (vs.map .value)
  | .tables items => some items
  | _ => none

/-- How messages name an item found where a shape expected something else. -/
def found : Item → Found
  | .value (.str s _) => .str s
  | .value (.int n _) => .signed n
  | .value (.float f _) => .other ("floating point `" ++ Number.positional f ++ "`")
  | .value (.bool b _) => .bool b
  | .value (.datetime ..) => .map
  | .value (.arr ..) => .seq
  | .value (.inline ..) => .map
  | .table .. => .map
  | .tables _ => .seq

end Item

/-- The complaint for an item of the wrong kind. -/
def wrongType (item : Item) (shape : Shape) : Except Complaint Datum :=
  .error { message := invalidType "unit value" item.found shape }

/-- The option named by the value of a one-entry table, which must be empty. -/
def emptyVariant (item : Item) : Except Complaint Unit :=
  match item with
  | .tables items => if items.isEmpty then .ok () else .error { message := "expected empty array" }
  | .value (.arr vs sp) => if vs.isEmpty then .ok () else .error { message := "expected empty array", span := sp }
  | .table es _ _ sp => if es.isEmpty then .ok () else .error { message := "expected empty table", span := sp }
  | .value (.inline es _ sp) =>
    if es.isEmpty then .ok () else .error { message := "expected empty table", span := sp }
  | other => .error { message := "expected table, found " ++ other.typeName, span := other.span? }

/-- A choice written as a table whose first entry names the option. -/
def variantOf (options : List String) : String × Span × Item → Except Complaint Datum
  | (k, ks, v) =>
    if !options.contains k then .error { message := unknownVariant k options, span := some ks }
    else (emptyVariant v).map (fun _ => .choice k) |>.mapError (Complaint.at? (v.span?.orElse fun _ => some ks))

/-- A choice: a string, or a table with one entry. -/
def readChoice (options : List String) (item : Item) : Except Complaint Datum :=
  let result : Except Complaint Datum := match item with
    | .value (.str s _) =>
      if options.contains s then .ok (.choice s) else .error { message := unknownVariant s options }
    | .value (.inline es _ sp) =>
      match es with
      | [] => .error { message := "wanted exactly 1 element, found 0 elements", span := some sp }
      | [(k, ks, v)] => variantOf options (k, ks, .value v)
      | _ => .error { message := "wanted exactly 1 element, more than 1 element", span := some sp }
    | .table es _ _ sp =>
      match es with
      | [] => .error { message := "expected table with exactly 1 entry, found empty table", span := sp }
      | e :: _ => variantOf options e
    | other => .error { message := "wanted string or table", span := other.span? }
  result.mapError (Complaint.at? item.span?)

/-- Read an item against a shape. -/
def read : Nat → Shape → Item → Except Complaint Datum
  | 0, _, _ => .error { message := "recursion limit exceeded" }
  | fuel + 1, shape, item =>
    match shape with
    | .any => .ok .skipped
    | .maybe inner => Datum.some <$> read fuel inner item
    | .flag =>
      match item with
      | .value (.bool b _) => .ok (.flag b)
      | _ => wrongType item shape
    | .text _ =>
      match item with
      | .value (.str s _) => .ok (.text s)
      | _ => wrongType item shape
    | .count =>
      match item with
      | .value (.int n _) =>
        if 0 ≤ n then .ok (.count n.toNat)
        else .error { message := invalidValue "unit value" (.signed n) "u64" }
      | _ => wrongType item shape
    | .choice _ options => readChoice options item
    | .list inner =>
      match item.elements? with
      | some els => Datum.list <$> els.mapM fun el => (read fuel inner el).mapError (Complaint.at? el.span?)
      | none => wrongType item shape
    | .record _ fields =>
      match item with
      | .value (.datetime ..) => .ok (.record [])
      | _ =>
      match item.entries? with
      | some es => do
        let present ← es.filterMapM fun (k, ks, v) =>
          match fields.find? (·.1 == k) with
          | none => pure none
          | some (_, fshape, _) =>
            match read fuel fshape v with
            | .ok d => pure (some (k, d))
            | .error c => throw ((c.at? (v.span?.orElse fun _ => some ks)).under k)
        match fields.find? fun (f, _, optional) => !optional && !present.any (·.1 == f) with
        | some (f, _, _) => throw { message := missingField f }
        | none => pure (.record present)
      | none =>
        match item.elements? with
        | some els => do
          let present ← (fields.zip els).mapM fun ((f, fshape, _), el) =>
            match read fuel fshape el with
            | .ok d => pure (f, d)
            | .error c => throw (c.at? el.span?)
          match (fields.drop els.length).find? (fun (_, _, optional) => !optional) with
          | some _ => throw { message := invalidLength els.length shape }
          | none => pure (.record present)
        | none => wrongType item shape

/-- Where a character position stands: its line and its column, both from 0. A position at
or past the end is placed after the last character. -/
def locate (cs : List Char) (pos : Nat) : Nat × Nat :=
  if cs.isEmpty then (0, pos) else
  let safe := min pos (cs.length - 1)
  let before := cs.take safe
  let lineStart := before.length - (before.reverse.takeWhile (· != '\n')).length
  ((before.take lineStart).count '\n', safe - lineStart + (pos - safe))

/-- A message with the line it is about quoted, and `width` carets (at least one) under the
place. -/
def annotate (text : String) (pos width : Nat) (message : String) : String :=
  let (line, column) := locate text.toList pos
  let lineNum := toString (line + 1)
  let content := ((text.splitOn "\n")[line]?).getD ""
  let carets := max 1 (min width (content.utf8ByteSize - column))
  let pad (k : Nat) : String := String.ofList (List.replicate k ' ')
  "TOML parse error at line " ++ lineNum ++ ", column " ++ toString (column + 1) ++ "\n" ++
    pad (lineNum.length + 1) ++ "|\n" ++
    lineNum ++ " | " ++ content ++ "\n" ++
    pad (lineNum.length + 1) ++ "|" ++ pad (column + 1) ++ String.ofList (List.replicate carets '^') ++ "\n" ++
    message ++ "\n"

/-- How a complaint is shown, quoting the text it is about. -/
def Complaint.render (text : String) (c : Complaint) : String :=
  match c.span with
  | some sp =>
    let width := (String.ofList ((text.toList.drop sp.start).take (sp.stop - sp.start))).utf8ByteSize
    annotate text sp.start width c.message
  | none => c.message ++ "\n" ++ (if c.keys.isEmpty then "" else "in `" ++ ".".intercalate c.keys ++ "`\n")

/-- Read a TOML text against a shape; the error is the message shown to users. -/
def readDocument (shape : Shape) (text : String) : Except String Datum :=
  match parse text with
  | .error (.inl f) => .error (annotate text f.pos 1 f.message)
  | .error (.inr msg) => .error (msg ++ "\n")
  | .ok root => (read 64 shape root).mapError (Complaint.render text)

end Provisioning.Toml
