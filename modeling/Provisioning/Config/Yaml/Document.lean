import Provisioning.Config.Yaml.Event
import Provisioning.Data.Shape
/-!
# YAML documents read against a shape

The events of a document are walked together with a `Shape`.

* A record is a mapping whose keys name its fields (other keys are
  skipped, a field named twice is an error); an empty plain scalar, or a
  document holding no node at all, is a record with no fields.
* A string is any scalar, as written: `5`, `true` and `~` are strings too.
* A boolean is a plain `true`, `True`, `TRUE` or `false`, `False`,
  `FALSE`; a count is a plain unsigned integer (decimal, or `0x`, `0o`,
  `0b`) that fits in 64 bits.
* An optional value is absent when it is a plain scalar that is empty or
  spells null (`~`, `null`, `Null`, `NULL`).
* A list is a sequence; an empty plain scalar is an empty list.
* A choice is a scalar naming one of its options.
* An alias reads as the node its anchor names.

A value of the wrong kind is described by what a plain scalar would
resolve to (null, a boolean, an integer, a float, or a string), and a
quoted scalar is always a string. Messages name the path of keys to the
value and its place:
`host: invalid type: sequence, expected struct HostConfig at line 1 column 7`.
The path is left out at the root, and the place at the very start.

A syntax error stops the events; it is reported when reading needs an
event past it, and also when reading succeeds without needing one. A
second document is an error.
-/

namespace Provisioning.Yaml

/-- Why reading a YAML document failed. -/
inductive Fault where
  /-- A message about a value, with its place and path (none at the root) once known. -/
  | message (text : String) (place : Option (Mark × Option String))
  | malformed (p : Problem)
  | endOfStream
  | moreThanOneDocument
  | unknownAnchor (m : Mark)
  deriving Inhabited

/-- The message of a fault. -/
def Fault.text : Fault → String
  | .message text none => text
  | .message text (some (m, path)) =>
    (match path with
      | some p => p ++ ": "
      | none => "") ++ text ++ (if m.isStart then "" else " at " ++ m.text)
  | .malformed p => p.text
  | .endOfStream => "EOF while parsing a value"
  | .moreThanOneDocument => "deserializing from YAML containing more than one document is not supported"
  | .unknownAnchor m => "unknown anchor" ++ (if m.isStart then "" else " at " ++ m.text)

/-- Give a message its place, unless it has one. -/
def Fault.placed (m : Mark) (path : Option String) : Fault → Fault
  | .message text none => .message text (some (m, path))
  | f => f

/-- The path of a mapping's value under a key. -/
def childPath (path : Option String) (k : String) : Option String :=
  some (match path with
    | some p => p ++ "." ++ k
    | none => k)

/-- The path of a sequence's element. -/
def elementPath (path : Option String) (i : Nat) : Option String :=
  some (path.getD "." ++ "[" ++ toString i ++ "]")

/-! ## Plain scalars -/

/-- Whether a scalar spells null. -/
def isNullText (v : String) : Bool := v == "~" || v == "null" || v == "Null" || v == "NULL"

/-- The boolean a scalar spells. -/
def boolText? (v : String) : Option Bool :=
  if v == "true" || v == "True" || v == "TRUE" then some true
  else if v == "false" || v == "False" || v == "FALSE" then some false
  else none

/-- Digits with a leading zero, which are text and not a number: `0123`, `-007`. -/
def digitsButNotNumber (v : String) : Bool :=
  let cs := v.toList
  let cs := if cs.head? == some '-' || cs.head? == some '+' then cs.drop 1 else cs
  cs.length > 1 && cs.head? == some '0' && (cs.drop 1).all Char.isDigit

/-- The value of a digit in a radix. -/
def digitIn (radix : Nat) (c : Char) : Option Nat :=
  let d := if c.isDigit then c.toNat - 48
    else if 'a' ≤ c && c ≤ 'z' then c.toNat - 87
    else if 'A' ≤ c && c ≤ 'Z' then c.toNat - 55 else 36
  if d < radix then some d else none

/-- Digits of a radix, at least one, as a number. -/
def digitsIn (radix : Nat) (cs : List Char) : Option Nat :=
  if cs.isEmpty then none
  else cs.foldlM (fun n c => (digitIn radix c).map (n * radix + ·)) 0

/-- An integer in a radix with an optional sign (`+` only when unsigned), within bounds. -/
def intIn (radix : Nat) (signed : Bool) (lo hi : Int) (v : String) : Option Int :=
  let cs := v.toList
  let (neg, cs) := match cs with
    | '+' :: r => (false, r)
    | '-' :: r => if signed then (true, r) else (false, '-' :: r)
    | _ => (false, cs)
  (digitsIn radix cs).bind fun n =>
    let i : Int := if neg then -(n : Int) else n
    if lo ≤ i && i ≤ hi then some i else none

/-- An unsigned integer below `bound`: decimal, or `0x`, `0o`, `0b` with digits of that
base, with an optional `+`. -/
def unsignedText? (bound : Nat) (v : String) : Option Nat :=
  let body := if v.startsWith "+" then (v.drop 1).toString else v
  let radixed (prefix_ : String) (radix : Nat) : Option Nat :=
    if body.startsWith prefix_ then
      let rest := (body.drop 2).toString
      if rest.startsWith "+" || rest.startsWith "-" then none
      else (intIn radix false 0 (bound - 1) rest).map Int.toNat
    else none
  match radixed "0x" 16 with
  | some n => some n
  | none =>
  match radixed "0o" 8 with
  | some n => some n
  | none =>
  match radixed "0b" 2 with
  | some n => some n
  | none =>
    if body.startsWith "+" || body.startsWith "-" || digitsButNotNumber v then none
    else (intIn 10 false 0 (bound - 1) body).map Int.toNat

/-- A negative (or any signed) integer within `[-bound, bound)`. -/
def signedText? (bound : Nat) (v : String) : Option Int :=
  let radixed (prefix_ : String) (radix : Nat) : Option Int :=
    if v.startsWith prefix_ then intIn radix true (-(bound : Int)) (bound - 1) ("-" ++ (v.drop 3).toString) else none
  match radixed "-0x" 16 with
  | some n => some n
  | none =>
  match radixed "-0o" 8 with
  | some n => some n
  | none =>
  match radixed "-0b" 2 with
  | some n => some n
  | none => if digitsButNotNumber v then none else intIn 10 true (-(bound : Int)) (bound - 1) v

/-- A decimal float: an optional sign, digits with an optional point (at least one digit),
and an optional exponent; or `inf`, `infinity`, `nan` in any case. -/
def floatText? (v : String) : Option Float :=
  let cs := v.toList
  let (neg, cs) := match cs with
    | '+' :: r => (false, r)
    | '-' :: r => (true, r)
    | _ => (false, cs)
  let lower := String.ofList (cs.map Char.toLower)
  if lower == "inf" || lower == "infinity" then some (if neg then -(1.0 / 0.0) else 1.0 / 0.0)
  else if lower == "nan" then some (0.0 / 0.0)
  else
    let whole := cs.takeWhile Char.isDigit
    let cs := cs.drop whole.length
    let (frac, cs) := match cs with
      | '.' :: r => (r.takeWhile Char.isDigit, r.drop (r.takeWhile Char.isDigit).length)
      | _ => ([], cs)
    if whole.isEmpty && frac.isEmpty then none else
    let expo : Option Int := match cs with
      | [] => some 0
      | e :: r =>
        if e == 'e' || e == 'E' then
          let (eneg, r) := match r with
            | '+' :: r2 => (false, r2)
            | '-' :: r2 => (true, r2)
            | _ => (false, r)
          if r.isEmpty || !r.all Char.isDigit then none
          else
            let n : Int := (String.ofList r).toNat?.getD 0
            some (if eneg then -n else n)
        else none
    expo.map fun e =>
      let f := Number.ofDecimal ((String.ofList (whole ++ frac)).toNat?.getD 0) (e - frac.length)
      if neg then -f else f

/-- A float a plain scalar spells: `.inf`, `-.inf`, `.nan` in three casings, or a finite
decimal float. -/
def plainFloat? (v : String) : Option Float :=
  let body := if v.startsWith "+" then (v.drop 1).toString else v
  if v.startsWith "+" && (body.startsWith "+" || body.startsWith "-") then none
  else if body == ".inf" || body == ".Inf" || body == ".INF" then some (1.0 / 0.0)
  else if v == "-.inf" || v == "-.Inf" || v == "-.INF" then some (-(1.0 / 0.0))
  else if v == ".nan" || v == ".NaN" || v == ".NAN" then some (0.0 / 0.0)
  else match floatText? body with
    | some f => if f.isNaN || f.isInf then none else some f
    | none => none

/-- How a float found in a document is named in messages. -/
def floatFound (f : Float) : Found := .other ("floating point `" ++ Number.positional f ++ "`")

/-- What a plain scalar resolves to, as messages name it. -/
def plainFound (v : String) : Found :=
  if v.isEmpty || isNullText v then .unit
  else match boolText? v with
  | some b => .bool b
  | none =>
  match unsignedText? (Nat.pow 2 64) v with
  | some n => .unsigned n
  | none =>
  match signedText? (Nat.pow 2 63) v with
  | some n => .signed n
  | none =>
  match unsignedText? (Nat.pow 2 128) v with
  | some n => .other ("integer `" ++ toString n ++ "` as u128")
  | none =>
  match signedText? (Nat.pow 2 127) v with
  | some n => .other ("integer `" ++ (if n < 0 then "-" else "") ++ toString n.natAbs ++ "` as i128")
  | none =>
  match (if digitsButNotNumber v then none else plainFloat? v) with
  | some f => floatFound f
  | none => .str v

/-- What a scalar is, as messages name it: plain scalars resolve, quoted ones are strings. -/
def scalarFound (tag : Option String) (style : ScalarStyle) (v : String) : Found :=
  match tag with
  | some t =>
    if t.startsWith "!" && style == .plain then plainFound v else .str v
  | none => if style == .plain then plainFound v else .str v

/-! ## Reading events -/

/-- The events of a document, with the error that cut them short and whether more
documents follow. -/
structure Reader where
  events : Array Event
  error : Option Fault
  more : Bool
  deriving Inhabited

namespace Reader

/-- The events of the first document of a text; an alias to an anchor not seen before ends
them with an error. -/
def load (text : String) : Reader :=
  let doc := Document.read text
  let rec check : List Event → List String → List Event → List Event × Option Fault
    | [], _, acc => (acc.reverse, none)
    | e :: rest, anchors, acc =>
      let anchorOf : Option String := match e.kind with
        | .scalar a _ _ _ | .sequenceStart a _ | .mappingStart a _ => a
        | _ => none
      match e.kind with
      | .alias name =>
        if anchors.contains name then check rest anchors (e :: acc)
        else (acc.reverse, some (.unknownAnchor e.start))
      | _ => check rest (anchorOf.toList ++ anchors) (e :: acc)
  let (events, aliasFault) := check doc.events [] []
  let error := match aliasFault with
    | some f => some f
    | none => doc.error.map .malformed
  { events := events.toArray, error, more := doc.more && error.isNone }

/-- Whether the document holds no node at all. -/
def isVoid (r : Reader) : Bool := r.events.isEmpty && r.error.isNone

/-- The event at a position, or why there is none. -/
def at? (r : Reader) (i : Nat) : Except Fault Event :=
  match r.events[i]? with
  | some e => .ok e
  | none => .error (r.error.getD .endOfStream)

/-- The position of the node an anchor names, the latest before position `i`. -/
def anchorBefore (r : Reader) (name : String) (i : Nat) : Nat :=
  let named (e : Event) : Bool := match e.kind with
    | .scalar a _ _ _ | .sequenceStart a _ | .mappingStart a _ => a == some name
    | _ => false
  ((List.range i).filter fun j => (r.events[j]?).any named).getLast?.getD 0

/-- Skip one node, giving the position after it. -/
def skipNode (r : Reader) : Nat → Nat → Nat → Except Fault Nat
  | 0, i, _ => .ok i
  | fuel + 1, i, depth => do
    let e ← r.at? i
    let depth := match e.kind with
      | .sequenceStart .. | .mappingStart .. => depth + 1
      | .sequenceEnd | .mappingEnd => depth - 1
      | _ => depth
    if depth == 0 then pure (i + 1) else r.skipNode fuel (i + 1) depth

/-- The message for a node of the wrong kind. -/
def wrongKind (e : Event) (shape : Shape) : Fault :=
  match e.kind with
  | .scalar _ tag v style => .message (invalidType "unit value" (scalarFound tag style v) shape) none
  | .sequenceStart .. => .message (invalidType "unit value" .seq shape) none
  | .mappingStart .. => .message (invalidType "unit value" .map shape) none
  | _ => .endOfStream

/-- The elements of a sequence up to its end, each read by `readItem` with its path. -/
def elementsWith (r : Reader) (readItem : Option String → Nat → Except Fault (Datum × Nat))
    (path : Option String) : Nat → Nat → Nat → List Datum → Except Fault (Datum × Nat)
  | 0, i, _, acc => .ok (.list acc.reverse, i)
  | steps + 1, i, n, acc => do
    let e ← r.at? i
    match e.kind with
    | .sequenceEnd => pure (.list acc.reverse, i + 1)
    | _ =>
      let (d, j) ← readItem (elementPath path n) i
      r.elementsWith readItem path steps j (n + 1) (d :: acc)

/-- The entries of a mapping read as the fields of a record, up to the mapping's end: a key
that names a field has its value read by `readField` (a field named twice is an error), and
other entries are skipped. -/
def entriesWith (r : Reader) (fields : List (String × Shape × Bool))
    (readField : Shape → Option String → Nat → Except Fault (Datum × Nat)) (path : Option String) :
    Nat → Nat → List (String × Datum) → Except Fault (List (String × Datum) × Nat)
  | 0, i, acc => .ok (acc.reverse, i)
  | steps + 1, i, acc => do
    let e ← r.at? i
    match e.kind with
    | .mappingEnd => pure (acc.reverse, i + 1)
    | .scalar _ _ k _ =>
      match fields.find? (·.1 == k) with
      | some (_, fshape, _) =>
        if acc.any (·.1 == k) then throw (.message (duplicateField k) none)
        let (d, j) ← readField fshape (childPath path k) (i + 1)
        r.entriesWith fields readField path steps j ((k, d) :: acc)
      | none =>
        let j ← r.skipNode (r.events.size + 1) (i + 1) 0
        r.entriesWith fields readField path steps j acc
    | .alias name =>
      match ((r.events[r.anchorBefore name i]?).map (·.kind) : Option EventKind) with
      | some (.scalar _ _ k _) =>
        match fields.find? (·.1 == k) with
        | some (_, fshape, _) =>
          if acc.any (·.1 == k) then throw (.message (duplicateField k) none)
          let (d, j) ← readField fshape (childPath path k) (i + 1)
          r.entriesWith fields readField path steps j ((k, d) :: acc)
        | none =>
          let j ← r.skipNode (r.events.size + 1) (i + 1) 0
          r.entriesWith fields readField path steps j acc
      | _ => throw ((wrongKind e (.text "field identifier")).placed e.start path)
    | _ => throw ((wrongKind e (.text "field identifier")).placed e.start path)

/-- Whether an optional value is absent: a plain scalar that is empty or spells null (with
no tag, or the null tag). -/
def isAbsent (e : Event) : Bool :=
  match e.kind with
  | .scalar _ tag v .plain =>
    match tag with
    | some t => t == "tag:yaml.org,2002:null" && isNullText v
    | none => v.isEmpty || isNullText v
  | _ => false

/-- Read the node at position `i` against a shape, giving the position after it. -/
def read (r : Reader) : Nat → Shape → Option String → Nat → Except Fault (Datum × Nat)
  | 0, _, _, _ => .error (.message "recursion limit exceeded" none)
  | fuel + 1, shape, path, i =>
    if r.isVoid && i == 0 then
      match shape with
      | .record .. => .ok (.record [], 0)
      | .maybe _ => .ok (.none, 0)
      | .list _ => .ok (.list [], 0)
      | .any => .ok (.skipped, 0)
      | _ => .error .endOfStream
    else do
    let e ← r.at? i
    if let .alias name := e.kind then
      let (d, _) ← r.read fuel shape path (r.anchorBefore name i)
      return (d, i + 1)
    let placed {α : Type} (x : Except Fault α) : Except Fault α := x.mapError (Fault.placed e.start path)
    let steps := r.events.size + 1
    match shape with
    | .any => pure (.skipped, ← r.skipNode steps i 0)
    | .maybe inner =>
      if isAbsent e then pure (.none, i + 1)
      else do
        let (d, j) ← r.read fuel inner path i
        pure (.some d, j)
    | .text _ =>
      match e.kind with
      | .scalar _ _ v _ => pure (.text v, i + 1)
      | _ => placed (.error (wrongKind e shape))
    | .flag =>
      match e.kind with
      | .scalar _ _ v .plain =>
        match boolText? v with
        | some b => pure (.flag b, i + 1)
        | none => placed (.error (wrongKind e shape))
      | _ => placed (.error (wrongKind e shape))
    | .count =>
      match e.kind with
      | .scalar _ _ v .plain =>
        match unsignedText? (Nat.pow 2 64) v with
        | some n => pure (.count n, i + 1)
        | none => placed (.error (wrongKind e shape))
      | _ => placed (.error (wrongKind e shape))
    | .choice _ options =>
      match e.kind with
      | .scalar _ _ v _ =>
        if options.contains v then pure (.choice v, i + 1)
        else placed (.error (.message (unknownVariant v options) none))
      | .mappingStart .. =>
        placed (.error (.message "invalid type: map, expected a YAML tag starting with '!'" none))
      | .sequenceStart .. =>
        placed (.error (.message "invalid type: sequence, expected a YAML tag starting with '!'" none))
      | _ => .error .endOfStream
    | .list item =>
      match e.kind with
      | .sequenceStart .. => placed (r.elementsWith (fun p j => r.read fuel item p j) path steps (i + 1) 0 [])
      | .scalar _ _ "" .plain => pure (.list [], i + 1)
      | _ => placed (.error (wrongKind e shape))
    | .record _ fields =>
      match e.kind with
      | .mappingStart .. => do
        let (present, j) ← placed (r.entriesWith fields (fun sh p j => r.read fuel sh p j) path steps (i + 1) [])
        match fields.find? fun (f, _, optional) => !optional && !present.any (·.1 == f) with
        | some (f, _, _) => placed (.error (.message (missingField f) none))
        | none => pure (.record present, j)
      | .scalar _ _ "" .plain => pure (.record [], i + 1)
      | _ => placed (.error (wrongKind e shape))

end Reader

/-- Read a YAML text against a shape; the error is the message shown to users. -/
def readDocument (shape : Shape) (text : String) : Except String Datum :=
  let r := Reader.load text
  match r.read 64 shape none 0 with
  | .error f => .error f.text
  | .ok (d, _) =>
    match r.error with
    | some f => .error f.text
    | none => if r.more then .error Fault.moreThanOneDocument.text else .ok d

end Provisioning.Yaml
