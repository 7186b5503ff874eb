import Provisioning.Number.Binary64
/-!
# Reading TOML text

A TOML document is read into a tree of tables and values, each value kept
with the stretch of text it came from, so that later complaints about a
value can point at it.

The reader follows the grammar line by line: blank lines and comments, table
headers (`[a.b]` and `[[a.b]]`), and `key = value` lines, where keys may be
dotted, quoted or bare, and values are strings (basic, literal and their
multi-line forms), integers (decimal, hexadecimal, octal, binary), floats,
booleans, dates and times, arrays and inline tables.

A failure records where it happened, what kind of thing was being read (the
innermost one), what would have been accepted, and an underlying cause. A
failure may also be final: inside a construct that has already committed,
such as a string after its opening quote, it ends the whole reading,
whereas other failures let an enclosing list or choice try something else.

Building the tree follows the rules of the format: a key is defined once, a
table header names a table at most once (a table made implicitly by a longer
header may still be defined later), dotted keys cannot reach into values or
into tables defined by headers, and an array of tables grows by one table at
each of its headers.
-/

namespace Provisioning.Toml

/-- A stretch of the text, by character positions, end excluded. -/
structure Span where
  start : Nat
  stop : Nat
  deriving Inhabited, Repr, BEq

/-- A value with the stretch of text it came from. -/
inductive Value where
  | str (s : String) (span : Span)
  | int (n : Int) (span : Span)
  | float (f : Float) (span : Span)
  | bool (b : Bool) (span : Span)
  | datetime (text : String) (span : Span)
  | arr (items : List Value) (span : Span)
  /-- An inline table; `dotted` when it was made by a dotted key. -/
  | inline (entries : List (String × Span × Value)) (dotted : Bool) (span : Span)
  deriving Inhabited

namespace Value

/-- Where the value stands. -/
def span : Value → Span
  | .str _ s | .int _ s | .float _ s | .bool _ s | .datetime _ s | .arr _ s | .inline _ _ s => s

/-- The name of the value's type, as messages give it. -/
def typeName : Value → String
  | .str .. => "string"
  | .int .. => "integer"
  | .float .. => "float"
  | .bool .. => "boolean"
  | .datetime .. => "datetime"
  | .arr .. => "array"
  | .inline .. => "inline table"

end Value

/-- An entry of a table: a value, a table, or an array of tables. -/
inductive Item where
  | value (v : Value)
  /-- A table; `implicit` when only made on the way to another, `dotted` when made by a
  dotted key, with the stretch from its header to its last value. -/
  | table (entries : List (String × Span × Item)) (implicit dotted : Bool) (span : Option Span)
  | tables (items : List Item)
  deriving Inhabited

/-- An empty table. -/
def Item.empty (implicit dotted : Bool) : Item := .table [] implicit dotted none

/-- Why reading stopped. -/
structure Failure where
  pos : Nat
  /-- The kind of thing being read, the innermost one. -/
  label : Option String := none
  /-- What would have been accepted there. -/
  expected : List String := []
  cause : Option String := none
  /-- Whether the failure ends the reading rather than letting another choice be tried. -/
  final : Bool := false
  deriving Inhabited

namespace Failure

/-- The message: the kind of thing, what was expected, and the cause, one per line. -/
def message (f : Failure) : String :=
  "\n".intercalate ((f.label.map ("invalid " ++ ·)).toList ++
    (if f.expected.isEmpty then [] else ["expected " ++ ", ".intercalate f.expected]) ++ f.cause.toList)

/-- Name the kind of thing being read, unless an inner one is named already. -/
def within (l : String) (f : Failure) : Failure := { f with label := f.label.orElse fun _ => some l }

/-- Add to what would have been accepted. -/
def expecting (items : List String) (f : Failure) : Failure := { f with expected := f.expected ++ items }

/-- Make the failure final. -/
def commit (f : Failure) : Failure := { f with final := true }

end Failure

/-- The part of the text still to read, with its position. -/
structure Src where
  rest : List Char
  pos : Nat
  deriving Inhabited

/-- What a reading step gives: a result and the text after it, or a failure. -/
abbrev Step (α : Type) := Except Failure (α × Src)

namespace Src

/-- The next character. -/
def peek (s : Src) : Option Char := s.rest.head?

/-- Skip `n` characters. -/
def skip (s : Src) (n : Nat) : Src := ⟨s.rest.drop n, s.pos + min n s.rest.length⟩

/-- Whether the text goes on with `p`. -/
def sees (s : Src) (p : String) : Bool := p.toList.isPrefixOf s.rest

/-- Skip the characters that satisfy `p`, giving them. -/
def span (s : Src) (p : Char → Bool) : List Char × Src :=
  let taken := s.rest.takeWhile p
  (taken, s.skip taken.length)

/-- A failure at this place. -/
def fail (s : Src) : Failure := { pos := s.pos }

end Src

/-- Spaces and tabs. -/
def isBlank (c : Char) : Bool := c == ' ' || c == '\t'

/-- Characters allowed in a comment. -/
def isCommentChar (c : Char) : Bool := c == '\t' || (c.toNat ≥ 0x20 && c.toNat != 0x7F)

/-- Characters of a bare key. -/
def isKeyChar (c : Char) : Bool := c.isAlphanum || c == '-' || c == '_'

/-- Characters a basic string holds as they are. -/
def isBasicChar (c : Char) : Bool :=
  let n := c.toNat
  c == ' ' || c == '\t' || n == 0x21 || (0x23 ≤ n && n ≤ 0x5B) || (0x5D ≤ n && n ≤ 0x7E) || n ≥ 0x80

/-- Characters a literal string holds. -/
def isLiteralChar (c : Char) : Bool :=
  let n := c.toNat
  c == '\t' || (0x20 ≤ n && n ≤ 0x26) || (0x28 ≤ n && n ≤ 0x7E) || n ≥ 0x80

/-- Whether a character is a hexadecimal digit. -/
def isHexDigit (c : Char) : Bool := c.isDigit || ('a' ≤ c && c ≤ 'f') || ('A' ≤ c && c ≤ 'F')

/-- The value of a hexadecimal digit. -/
def hexValue (c : Char) : Nat :=
  if c.isDigit then c.toNat - 48 else if 'a' ≤ c && c ≤ 'f' then c.toNat - 87 else c.toNat - 55

/-- Skip spaces and tabs. -/
def skipBlanks (s : Src) : Src := (s.span isBlank).2

/-- A comment, if one starts here. -/
def comment? (s : Src) : Option Src :=
  if s.peek == some '#' then some ((s.skip 1).span isCommentChar).2 else none

/-- A line end, if one starts here. -/
def newline? (s : Src) : Option Src :=
  match s.rest with
  | '\n' :: _ => some (s.skip 1)
  | '\r' :: '\n' :: _ => some (s.skip 2)
  | _ => none

/-- Blanks, an optional comment, and the end of the line or of the text. -/
def lineTrailing (s : Src) : Except Failure Src :=
  let s := skipBlanks s
  let s := (comment? s).getD s
  if s.rest.isEmpty then .ok s
  else match newline? s with
    | some t => .ok t
    | none => .error (s.fail.expecting ["newline", "`#`"])

/-- Blanks, comments and line ends, as many as there are. -/
def skipVoid : Nat → Src → Src
  | 0, s => s
  | fuel + 1, s =>
    let t := skipBlanks s
    match comment? t with
    | some u => skipVoid fuel u
    | none =>
      match newline? t with
      | some u => skipVoid fuel u
      | none => t

/-- What may follow a backslash in a basic string. -/
def escapeLetters : List String :=
  ["`b`", "`f`", "`n`", "`r`", "`t`", "`u`", "`U`", "`\\`", "`\"`"]

/-- The character of a backslash escape whose backslash is at `s`. -/
def escape (s : Src) : Step (List Char) :=
  let t := s.skip 1
  match t.rest with
  | [] => .error s.fail
  | c :: _ =>
    let after := t.skip 1
    let simple : Option Char := match c with
      | 'b' => some (Char.ofNat 8)
      | 'f' => some (Char.ofNat 12)
      | 'n' => some '\n'
      | 'r' => some '\r'
      | 't' => some '\t'
      | '\\' => some '\\'
      | '"' => some '"'
      | _ => none
    match simple with
    | some ch => .ok ([ch], after)
    | none =>
      if c == 'u' || c == 'U' then
        let width := if c == 'u' then 4 else 8
        let digits := (after.rest.takeWhile isHexDigit).take width
        let code := digits.foldl (fun n d => n * 16 + hexValue d) 0
        let label := if c == 'u' then "unicode 4-digit hex code" else "unicode 8-digit hex code"
        if digits.length == width && (code < 0xD800 || (0xDFFF < code && code ≤ 0x10FFFF)) then
          .ok ([Char.ofNat code], after.skip width)
        else .error (after.fail.within label).commit
      else .error ((after.fail.within "escape sequence").expecting escapeLetters).commit

/-- The rest of a basic string after its opening quote. -/
def basicBody : Nat → Src → List Char → Step String
  | 0, s, _ => .error (s.fail.within "basic string").commit
  | fuel + 1, s, acc =>
    match s.rest with
    | '"' :: _ => .ok (String.ofList acc.reverse, s.skip 1)
    | '\\' :: _ =>
      match escape s with
      | .ok (cs, t) => basicBody fuel t (cs.reverse ++ acc)
      | .error f => if f.final then .error f else .error (s.fail.within "basic string").commit
    | c :: _ =>
      if isBasicChar c then basicBody fuel (s.skip 1) (c :: acc)
      else .error (s.fail.within "basic string").commit
    | [] => .error (s.fail.within "basic string").commit

/-- A literal string whose opening quote is at `s`. -/
def literalString (s : Src) : Step String :=
  let (cs, t) := (s.skip 1).span isLiteralChar
  if t.peek == some '\'' then .ok (String.ofList cs, t.skip 1)
  else .error (t.fail.within "literal string").commit

/-- The body of a multi-line string up to its closing delimiter of three `quote`s; one or two
more quotes just before the delimiter belong to the body. Backslash escapes are read when
`escapes`, including a backslash at the end of a line, which drops the line end and the
blanks after it. -/
def multilineBody (quote : Char) (escapes : Bool) (label : String) : Nat → Src → List Char → Step String
  | 0, s, _ => .error (s.fail.within label).commit
  | fuel + 1, s, acc =>
    match s.rest with
    | [] => .error (s.fail.within label).commit
    | c :: _ =>
      if c == quote then
        let (qs, t) := s.span (· == quote)
        if qs.length ≥ 3 then
          if qs.length > 5 then .error ((s.skip 5).fail.within label).commit
          else .ok (String.ofList ((List.replicate (qs.length - 3) quote).reverse ++ acc).reverse, t)
        else multilineBody quote escapes label fuel t (qs ++ acc)
      else if c == '\\' && escapes then
        let t := skipBlanks (s.skip 1)
        match newline? t with
        | some u => multilineBody quote escapes label fuel (skipVoidBlank (u.rest.length + 1) u) acc
        | none =>
          match escape s with
          | .ok (cs, u) => multilineBody quote escapes label fuel u (cs.reverse ++ acc)
          | .error f => .error (if f.final then f else (s.fail.within label).commit)
      else
        match newline? s with
        | some u => multilineBody quote escapes label fuel u ('\n' :: acc)
        | none =>
          if (if escapes then isBasicChar c else isLiteralChar c) then
            multilineBody quote escapes label fuel (s.skip 1) (c :: acc)
          else .error (s.fail.within label).commit
where
  /-- Blanks and line ends after a line-ending backslash. -/
  skipVoidBlank : Nat → Src → Src
    | 0, s => s
    | n + 1, s =>
      match s.rest with
      | c :: _ => if isBlank c then skipVoidBlank n (s.skip 1)
        else match newline? s with
          | some u => skipVoidBlank n u
          | none => s
      | [] => s

/-- A string of any of the four kinds, starting at `s`. -/
def string (s : Src) : Step String :=
  let fuel := s.rest.length + 1
  if s.sees "\"\"\"" then
    let t := s.skip 3
    multilineBody '"' true "multiline basic string" fuel ((newline? t).getD t) []
  else if s.sees "\"" then basicBody fuel (s.skip 1) []
  else if s.sees "'''" then
    let t := s.skip 3
    multilineBody '\'' false "multiline literal string" fuel ((newline? t).getD t) []
  else literalString s

/-- A key part: quoted, or bare. -/
def simpleKey (s : Src) : Step (String × Span) :=
  match s.peek with
  | some '"' => (basicBody (s.rest.length + 1) (s.skip 1) []).map fun (k, t) => ((k, ⟨s.pos, t.pos⟩), t)
  | some '\'' => (literalString s).map fun (k, t) => ((k, ⟨s.pos, t.pos⟩), t)
  | _ =>
    let (cs, t) := s.span isKeyChar
    if cs.isEmpty then .error s.fail else .ok ((String.ofList cs, ⟨s.pos, t.pos⟩), t)

/-- The further parts of a dotted key. -/
def keyParts : Nat → Src → List (String × Span) → Step (List (String × Span))
  | 0, s, acc => .ok (acc.reverse, s)
  | fuel + 1, s, acc =>
    if s.peek == some '.' then
      match simpleKey (skipBlanks (s.skip 1)) with
      | .ok (k, t) => keyParts fuel (skipBlanks t) (k :: acc)
      | .error f => if f.final then .error (f.within "key") else .ok (acc.reverse, s)
    else .ok (acc.reverse, s)

/-- A key, dotted or not, with the blanks around its parts. -/
def key (s : Src) : Step (List (String × Span)) :=
  match simpleKey (skipBlanks s) with
  | .error f => .error (f.within "key")
  | .ok (k, t) => keyParts (t.rest.length + 1) (skipBlanks t) [k]

/-- Digits, with single underscores between them; the first must be there. -/
def digitRun (isDigit : Char → Bool) (s : Src) : Step (List Char) :=
  match s.rest with
  | c :: _ =>
    if !isDigit c then .error s.fail
    else
      let rec go : Nat → Src → List Char → Step (List Char)
        | 0, s, acc => .ok (acc.reverse, s)
        | fuel + 1, s, acc =>
          match s.rest with
          | d :: _ =>
            if isDigit d then go fuel (s.skip 1) (d :: acc)
            else if d == '_' then
              match (s.skip 1).rest with
              | e :: _ =>
                if isDigit e then go fuel (s.skip 2) (e :: acc)
                else .error ((s.skip 1).fail.expecting ["digit"]).commit
              | [] => .error ((s.skip 1).fail.expecting ["digit"]).commit
            else .ok (acc.reverse, s)
          | [] => .ok (acc.reverse, s)
      go (s.rest.length + 1) (s.skip 1) [c]
  | [] => .error s.fail

/-- A decimal integer's text: an optional sign, then `0` alone or digits not starting with `0`. -/
def decInt (s : Src) : Step (Bool × List Char) :=
  let (neg, t) := match s.peek with
    | some '-' => (true, s.skip 1)
    | some '+' => (false, s.skip 1)
    | _ => (false, s)
  match t.rest with
  | '0' :: _ => .ok ((neg, ['0']), t.skip 1)
  | _ =>
    match digitRun Char.isDigit t with
    | .ok (ds, u) => .ok ((neg, ds), u)
    | .error f => .error (f.within "integer")

/-- The float nearest to `digits * 10 ^ exponent`, negated when `neg`. -/
def floatOf (neg : Bool) (digits : Nat) (exponent : Int) : Float :=
  let f := Number.ofDecimal digits exponent
  if neg then -f else f

/-- `inf` or `nan`, with an optional sign. -/
def specialFloat? (s : Src) : Option (Float × Src) :=
  let (neg, t) := match s.peek with
    | some '-' => (true, s.skip 1)
    | some '+' => (false, s.skip 1)
    | _ => (false, s)
  if t.sees "inf" then some ((if neg then -1.0 else 1.0) / 0.0, t.skip 3)
  else if t.sees "nan" then some (0.0 / 0.0, t.skip 3)
  else none

/-- The exponent part of a float, its letter at `s`. -/
def floatExponent (neg : Bool) (whole frac : List Char) (s : Src) : Step Float :=
  let t := s.skip 1
  let (eneg, t) := match t.peek with
    | some '-' => (true, t.skip 1)
    | some '+' => (false, t.skip 1)
    | _ => (false, t)
  match digitRun Char.isDigit t with
  | .error f => .error (f.within "floating-point number").commit
  | .ok (ds, u) =>
    let e : Int := (String.ofList ds).toNat?.getD 0
    let e := if eneg then -e else e
    let digits := String.ofList (whole ++ frac)
    .ok (floatOf neg (digits.toNat?.getD 0) (e - frac.length), u)

/-- A float: a decimal integer followed by a fraction, an exponent, or both; one too large
to be finite is refused at its start. -/
def float (s : Src) : Step Float :=
  match specialFloat? s with
  | some r => .ok r
  | none =>
    match finite s with
    | .ok (f, u) => if f.isInf then .error (s.fail.within "floating-point number").commit else .ok (f, u)
    | .error e => .error e
where
  /-- The float before checking its size. -/
  finite (s : Src) : Step Float :=
    match decInt s with
    | .error f => .error (f.within "floating-point number")
    | .ok ((neg, whole), t) =>
      let fraction : Step (List Char) :=
        if t.peek == some '.' then
          match digitRun Char.isDigit (t.skip 1) with
          | .ok r => .ok r
          | .error f => .error ((f.expecting (if f.final then [] else ["digit"])).commit)
        else .error t.fail
      let (frac, u, hasFrac) := match fraction with
        | .ok (ds, u) => (ds, u, true)
        | .error _ => ([], t, false)
      match fraction with
      | .error f =>
        if f.final then .error (f.within "floating-point number") else
        if t.peek == some 'e' || t.peek == some 'E' then floatExponent neg whole [] t
        else .error (t.fail.within "floating-point number")
      | .ok _ =>
        if hasFrac && (u.peek == some 'e' || u.peek == some 'E') then floatExponent neg whole frac u
        else
          let digits := String.ofList (whole ++ frac)
          .ok (floatOf neg (digits.toNat?.getD 0) (-(Int.ofNat frac.length)), u)

/-- The largest integer of the format. -/
def intMax : Int := Int.pow 2 63 - 1

/-- An integer: decimal, or `0x`, `0o`, `0b` with digits of that base. -/
def integer (s : Src) : Step Int :=
  let radix : Option (Nat × (Char → Bool) × String) :=
    if s.sees "0x" then some (16, isHexDigit, "hexadecimal integer")
    else if s.sees "0o" then some (8, fun c => '0' ≤ c && c ≤ '7', "octal integer")
    else if s.sees "0b" then some (2, fun c => c == '0' || c == '1', "binary integer")
    else none
  match radix with
  | some (base, isDigit, label) =>
    match digitRun isDigit (s.skip 2) with
    | .error f => .error (f.within label).commit
    | .ok (ds, t) =>
      let n := ds.foldl (fun n d => n * base + hexValue d) 0
      if n > intMax.toNat then .error ({ s.fail with cause := some "number too large to fit in target type" }).commit
      else .ok (n, t)
  | none =>
    match decInt s with
    | .error f => .error f
    | .ok ((neg, ds), t) =>
      let n : Int := (String.ofList ds).toNat?.getD 0
      let n := if neg then -n else n
      if n > intMax then .error ({ s.fail with cause := some "number too large to fit in target type" }).commit
      else if n < -intMax - 1 then
        .error ({ s.fail with cause := some "number too small to fit in target type" }).commit
      else .ok (n, t)

/-- Exactly `n` digits. -/
def digitsExactly (n : Nat) (s : Src) : Option Src :=
  let ds := s.rest.take n
  if ds.length == n && ds.all Char.isDigit then some (s.skip n) else none

/-- A time of day `HH:MM:SS` with an optional fraction, at `s`. -/
def time? (s : Src) : Option Src := do
  let s ← digitsExactly 2 s
  if s.peek != some ':' then none
  let s ← digitsExactly 2 (s.skip 1)
  if s.peek != some ':' then none
  let s ← digitsExactly 2 (s.skip 1)
  if s.peek == some '.' then
    let (ds, t) := (s.skip 1).span Char.isDigit
    if ds.isEmpty then none else some t
  else some s

/-- A date, a date with a time and an optional offset, or a time of day. -/
def datetime? (s : Src) : Option (String × Src) :=
  let taken (t : Src) : String := String.ofList (s.rest.take (t.pos - s.pos))
  match digitsExactly 4 s with
  | some t =>
    if t.peek != some '-' then none else do
      let t ← digitsExactly 2 (t.skip 1)
      if t.peek != some '-' then none
      let t ← digitsExactly 2 (t.skip 1)
      let withTime : Option Src := match t.peek with
        | some 'T' | some 't' | some ' ' => time? (t.skip 1)
        | _ => none
      match withTime with
      | none => some (taken t, t)
      | some u =>
        let u := match u.peek with
          | some 'Z' | some 'z' => u.skip 1
          | some '+' | some '-' =>
            match digitsExactly 2 (u.skip 1) with
            | some v => if v.peek == some ':' then ((digitsExactly 2 (v.skip 1)).getD u) else u
            | none => u
          | _ => u
        some (taken u, u)
  | none => (time? s).map fun t => (taken t, t)

/-- The failure where a value cannot start. -/
def noValue (s : Src) (final : Bool) : Failure :=
  { (s.fail.within "string").expecting ["`\"`", "`'`"] with final }

mutual

/-- A value starting at `s`. -/
def value (fuel : Nat) (s : Src) : Step Value :=
  match fuel with
  | 0 => .error ({ s.fail with cause := some "recursion limit exceeded" }).commit
  | fuel + 1 =>
    let spanned {α : Type} (mk : α → Span → Value) (r : Step α) : Step Value :=
      r.map fun (a, t) => (mk a ⟨s.pos, t.pos⟩, t)
    match s.peek with
    | some '"' | some '\'' => spanned .str (string s)
    | some '[' => spanned .arr (array fuel s)
    | some '{' =>
      spanned (fun es sp => .inline es false sp) (inlineTable fuel s)
    | some c =>
      if c == '+' || c == '-' || c.isDigit then
        match datetime? s with
        | some (text, t) => .ok (.datetime text ⟨s.pos, t.pos⟩, t)
        | none =>
          match float s with
          | .ok (f, t) => .ok (.float f ⟨s.pos, t.pos⟩, t)
          | .error f =>
            if f.final then .error f else spanned .int (integer s)
      else if c == 't' then
        if s.sees "true" then .ok (.bool true ⟨s.pos, s.pos + 4⟩, s.skip 4) else .error (noValue s true)
      else if c == 'f' then
        if s.sees "false" then .ok (.bool false ⟨s.pos, s.pos + 5⟩, s.skip 5) else .error (noValue s true)
      else if c == 'i' || c == 'n' then
        match specialFloat? s with
        | some (f, t) => .ok (.float f ⟨s.pos, t.pos⟩, t)
        | none => .error (noValue s true)
      else if c == '_' then .error ((s.fail.within "integer").expecting ["leading digit"])
      else if c == '.' then .error ((s.fail.within "floating-point number").expecting ["leading digit"])
      else .error (noValue s false)
    | none => .error (noValue s false)

/-- An array whose opening bracket is at `s`. -/
def array (fuel : Nat) (s : Src) : Step (List Value) :=
  let void (t : Src) : Src := skipVoid (t.rest.length + 1) t
  let rec items : Nat → Src → List Value → Except Failure (List Value × Src)
    | 0, t, acc => .ok (acc.reverse, t)
    | n + 1, t, acc =>
      match value fuel (void t) with
      | .error f => if f.final then .error f else .ok (acc.reverse, t)
      | .ok (v, u) =>
        let u := void u
        if u.peek == some ',' then items n (u.skip 1) (v :: acc) else .ok ((v :: acc).reverse, u)
  match items ((s.skip 1).rest.length + 1) (s.skip 1) [] with
  | .error f => .error f
  | .ok (vs, t) =>
    let t := void t
    if t.peek == some ']' then .ok (vs, t.skip 1)
    else .error ((t.fail.within "array").expecting ["`]`"]).commit

/-- An inline table whose opening brace is at `s`. -/
def inlineTable (fuel : Nat) (s : Src) : Step (List (String × Span × Value)) :=
  let rec pairs : Nat → Src → List (List (String × Span) × Value) →
      Except Failure (List (List (String × Span) × Value) × Src)
    | 0, t, acc => .ok (acc.reverse, t)
    | n + 1, t, acc =>
      match key t with
      | .error f => if f.final then .error f else .ok (acc.reverse, t)
      | .ok (path, u) =>
        if u.peek != some '=' then .error (u.fail.expecting ["`.`", "`=`"]).commit
        else
          match value fuel (skipBlanks (u.skip 1)) with
          | .error f => .error f.commit
          | .ok (v, w) =>
            let w := skipBlanks w
            if w.peek == some ',' then
              match key (w.skip 1) with
              | .error f => if f.final then .error f else .ok ((path, v) :: acc |>.reverse, w)
              | .ok _ => pairs n (w.skip 1) ((path, v) :: acc)
            else .ok (((path, v) :: acc).reverse, w)
  let start := s.skip 1
  match pairs (start.rest.length + 1) start [] with
  | .error f => .error f
  | .ok (ps, t) =>
    match inlineOfPairs ps with
    | .error msg => .error ({ start.fail with cause := some msg }).commit
    | .ok entries =>
      let t := skipBlanks t
      if t.peek == some '\x7d' then .ok (entries, t.skip 1)
      else .error ((t.fail.within "inline table").expecting ["`\x7d`"]).commit

/-- The entries of an inline table from its key paths and values. -/
def inlineOfPairs (ps : List (List (String × Span) × Value)) : Except String (List (String × Span × Value)) :=
  ps.foldlM (fun entries (path, v) => insertInline entries path v) []

/-- Insert a value at a key path into the entries of an inline table, making the tables of a
dotted key on the way. -/
def insertInline (entries : List (String × Span × Value)) :
    List (String × Span) → Value → Except String (List (String × Span × Value))
  | [], _ => .ok entries
  | [(k, ks)], v =>
    if entries.any (·.1 == k) then .error ("duplicate key `" ++ k ++ "`")
    else .ok (entries ++ [(k, ks, v)])
  | (k, ks) :: rest, v =>
    match entries.find? (·.1 == k) with
    | none => do
      let inner ← insertInline [] rest v
      .ok (entries ++ [(k, ks, .inline inner true ⟨ks.start, ks.stop⟩)])
    | some (_, _, .inline inner d sp) => do
      if !d then
        match rest.getLast? with
        | some (last, _) => .error ("duplicate key `" ++ last ++ "`")
        | none => .ok entries
      else
        let inner ← insertInline inner rest v
        .ok (entries.map fun (k2, ks2, v2) => if k2 == k then (k2, ks2, .inline inner d sp) else (k2, ks2, v2))
    | some (_, _, other) =>
      .error ("dotted key `" ++ k ++ "` attempted to extend non-table type (" ++ other.typeName ++ ")")

end

/-! ## Building the tables -/

/-- The message for a key defined twice; `table` is where it was defined. -/
def duplicateKey (k : String) (table : List String) : String :=
  if table.isEmpty then "duplicate key `" ++ k ++ "` in document root"
  else "duplicate key `" ++ k ++ "` in table `" ++ ".".intercalate table ++ "`"

/-- Walk down a key path from a table, making missing tables on the way (implicit, and dotted
as asked), passing through the last table of an array of tables; `f` works on the table
reached. `full` and `depth` place the walk in the whole path, for messages. -/
def descend {β : Type} [Inhabited β] (full : List String) (dotted : Bool) (f : Item → Except String (Item × β)) :
    Nat → List String → Item → Except String (Item × β)
  | _, [], t => f t
  | depth, k :: rest, .table entries imp dt sp =>
    let update (child : Item) : Item :=
      .table (entries.map fun (k2, ks, v) => if k2 == k then (k2, ks, child) else (k2, ks, v)) imp dt sp
    match entries.find? (·.1 == k) with
    | none => do
      let (child, b) ← descend full dotted f (depth + 1) rest (Item.empty true dotted)
      pure (.table (entries ++ [(k, ⟨0, 0⟩, child)]) imp dt sp, b)
    | some (_, _, .value v) =>
      .error ("dotted key `" ++ ".".intercalate (full.take (depth + 1)) ++
        "` attempted to extend non-table type (" ++ v.typeName ++ ")")
    | some (_, _, .tables items) =>
      match items.getLast? with
      | some last => do
        let (child, b) ← descend full dotted f (depth + 1) rest last
        pure (update (.tables (items.dropLast ++ [child])), b)
      | none => .error (duplicateKey k (full.take depth))
    | some (_, _, .table ce cimp cdt csp) =>
      if dotted && !cimp then .error (duplicateKey k (full.take depth))
      else do
        let (child, b) ← descend full dotted f (depth + 1) rest (.table ce cimp cdt csp)
        pure (update child, b)
  | _, _, t => .ok (t, default)

/-- The document being built: the tables finished so far, and the table being filled with
its path. -/
structure Builder where
  root : Item := Item.empty false false
  current : Item := Item.empty false false
  path : List String := []
  isArray : Bool := false
  deriving Inhabited

namespace Builder

/-- Put the table being filled into the document. -/
def finish (b : Builder) : Except String Builder :=
  match b.path.getLast? with
  | none => .ok { b with root := b.current }
  | some k => do
    let parent := b.path.dropLast
    let (root, _) ← descend parent false (fun t =>
      match t with
      | .table entries imp dt sp =>
        match entries.find? (·.1 == k) with
        | none =>
          .ok (.table (entries ++ [(k, ⟨0, 0⟩, if b.isArray then .tables [b.current] else b.current)]) imp dt sp, ())
        | some (_, _, .tables items) =>
          if b.isArray then
            .ok (.table (entries.map fun (k2, ks, v) =>
              if k2 == k then (k2, ks, .tables (items ++ [b.current])) else (k2, ks, v)) imp dt sp, ())
          else .error (duplicateKey k parent)
        | some (_, _, .table _ true _ _) =>
          if b.isArray then .error (duplicateKey k parent)
          else .ok (.table (entries.map fun (k2, ks, v) =>
            if k2 == k then (k2, ks, b.current) else (k2, ks, v)) imp dt sp, ())
        | some _ => .error (duplicateKey k parent)
      | other => .ok (other, ())) 0 parent b.root
    pure { b with root }

/-- Start the table of a `[path]` header. -/
def stdHeader (b : Builder) (path : List (String × Span)) (span : Span) : Except String Builder := do
  let b ← b.finish
  let names := path.map (·.1)
  let k := (names.getLast?).getD ""
  let parent := names.dropLast
  let (root, removed) ← descend parent false (fun t =>
    match t with
    | .table entries imp dt sp =>
      .ok (.table (entries.filter (·.1 != k)) imp dt sp, (entries.find? (·.1 == k)).map (·.2.2))
    | other => .ok (other, none)) 0 parent b.root
  let current ← match removed with
    | none => pure (Item.table [] false false (some span))
    | some (.table entries true false _) => pure (Item.table entries false false (some span))
    | some _ => .error (duplicateKey k parent)
  pure { root, current, path := names, isArray := false }

/-- Start a new table of the array of tables of a `[[path]]` header. -/
def arrayHeader (b : Builder) (path : List (String × Span)) (span : Span) : Except String Builder := do
  let b ← b.finish
  let names := path.map (·.1)
  let k := (names.getLast?).getD ""
  let parent := names.dropLast
  let (root, _) ← descend parent false (fun t =>
    match t with
    | .table entries imp dt sp =>
      match entries.find? (·.1 == k) with
      | none => .ok (.table (entries ++ [(k, ⟨0, 0⟩, .tables [])]) imp dt sp, ())
      | some (_, _, .tables _) => .ok (t, ())
      | some _ => .error (duplicateKey k parent)
    | other => .ok (other, ())) 0 parent b.root
  pure { root, current := .table [] false false (some span), path := names, isArray := true }

/-- Add a `key = value` line to the table being filled. -/
def keyval (b : Builder) (path : List (String × Span)) (v : Value) : Except String Builder := do
  let names := path.map (·.1)
  let (k, ks) := (path.getLast?).getD ("", ⟨0, 0⟩)
  let dottedPath := names.dropLast
  let current := match b.current with
    | .table entries imp dt (some sp) => Item.table entries imp dt (some ⟨sp.start, v.span.stop⟩)
    | other => other
  let (current, _) ← descend dottedPath true (fun t =>
    match t with
    | .table entries imp dt sp =>
      if dt == dottedPath.isEmpty then .error ("duplicate key `" ++ k ++ "`")
      else if entries.any (·.1 == k) then .error (duplicateKey k b.path)
      else .ok (.table (entries ++ [(k, ks, .value v)]) imp dt sp, ())
    | other => .ok (other, ())) 0 dottedPath current
  pure { b with current }

end Builder

/-- A header line whose bracket is at `s`. -/
def header (b : Builder) (s : Src) : Except Failure (Builder × Src) := do
  let isArray := s.sees "[["
  let close := if isArray then "]]" else "]"
  let (path, t) ← (key (s.skip close.length)).mapError (·.within "table header")
  if !t.sees close then
    throw (((t.fail.within "table header").expecting ["`.`", "`" ++ close ++ "`"]).commit)
  let t := t.skip close.length
  let span : Span := ⟨s.pos, t.pos⟩
  let u ← (lineTrailing t).mapError fun f => (f.within "table header").commit
  let made := if isArray then b.arrayHeader path span else b.stdHeader path span
  match made with
  | .ok b => pure (b, u)
  | .error msg => throw (({ s.fail with cause := some msg }).within "table header").commit

/-- A `key = value` line starting at `s`. -/
def keyvalLine (b : Builder) (s : Src) : Except Failure (Builder × Src) := do
  let (path, t) ← (key s).mapError Failure.commit
  if t.peek != some '=' then throw (t.fail.expecting ["`.`", "`=`"]).commit
  let (v, u) ← (value 128 (skipBlanks (t.skip 1))).mapError Failure.commit
  let w ← (lineTrailing u).mapError Failure.commit
  match b.keyval path v with
  | .ok b => pure (b, w)
  | .error msg => throw ({ s.fail with cause := some msg }).commit

/-- The lines of a document. -/
def lines : Nat → Builder → Src → Except Failure (Builder × Src)
  | 0, b, s => .ok (b, s)
  | fuel + 1, b, s =>
    let s := skipBlanks s
    match s.peek with
    | none => .ok (b, s)
    | some '#' =>
      let t := ((s.skip 1).span isCommentChar).2
      if t.rest.isEmpty then .ok (b, t)
      else match newline? t with
        | some u => lines fuel b u
        | none => .error t.fail.commit
    | some '[' =>
      match header b s with
      | .ok (b, t) => lines fuel b t
      | .error f => .error f
    | some '\n' | some '\r' =>
      match newline? s with
      | some t => lines fuel b t
      | none => .ok (b, s)
    | some _ =>
      match keyvalLine b s with
      | .ok (b, t) => lines fuel b t
      | .error f => .error f

/-- Read a document into its root table; a failure has no position when it was found only
once the whole text was read. -/
def parse (text : String) : Except (Failure ⊕ String) Item :=
  let cs := text.toList
  let cs := if cs.head? == some (Char.ofNat 0xFEFF) then cs.drop 1 else cs
  let start : Src := ⟨cs, text.length - cs.length⟩
  match lines (cs.length + 1) {} start with
  | .error f => .error (.inl f)
  | .ok (b, s) =>
    if !s.rest.isEmpty then .error (.inl s.fail)
    else match b.finish with
      | .ok b => .ok b.root
      | .error msg => .error (.inr msg)

end Provisioning.Toml
