import Provisioning.Data.Shape
import Provisioning.Number.Binary64
/-!
Reading JSON text against a shape.

The reader walks the bytes of a JSON text and a `Shape` together and
returns a `Datum`, or an error message with the line (from 1) and the
column (bytes from the start of the line) where it was found. The rules for
that place are part of the contract, since the messages are shown to users:

* A syntax error at the next byte is reported at that byte, counted as
  consumed; an error about something already consumed (a bad escape, a bad
  literal, a number out of range) is reported just after it.
* A value of the wrong kind is read in full first when it is a literal, a
  number or a string, so the error stands after it; an array or object of
  the wrong kind is reported at its opening bracket.
* An error about a record as a whole (a field given twice, a required field
  left out, a sequence too short) is reported after the record's closing
  bracket has been looked for: blanks are skipped and the bracket, if it is
  there, is consumed.

Records may be written as objects (fields by name, in any order, unknown
names skipped) or as arrays (fields by position). Numbers are read as
unsigned, negative or floating values the way the text spells them:
`-0` and any number with a fraction or exponent is floating, and a whole
number too large for 64 bits becomes floating too.

Every function takes a fuel argument; `readDocument` passes more than the
number of bytes, and every step consumes a byte or goes one level deeper,
so the fuel never runs out on a real text.
-/

namespace Provisioning.Json

/-- A reading error: the message and where it arose. -/
structure ReadError where
  message : String
  line : Nat
  column : Nat

/-- The error as shown to users. -/
def ReadError.text (e : ReadError) : String :=
  e.message ++ " at line " ++ toString e.line ++ " column " ++ toString e.column

/-- Where a reader stands: the bytes still to read and the place of the next one. -/
structure Cursor where
  rest : List UInt8
  line : Nat
  column : Nat

/-- A result of reading: a value and where reading stopped, or an error. -/
abbrev Read (α : Type) := Except ReadError (α × Cursor)

namespace Cursor

/-- A cursor at the start of a text. -/
def start (bytes : List UInt8) : Cursor := ⟨bytes, 1, 0⟩

/-- The cursor after one more byte. -/
def bump (c : Cursor) : Cursor :=
  match c.rest with
  | [] => c
  | b :: r => if b = 10 then ⟨r, c.line + 1, 0⟩ else ⟨r, c.line, c.column + 1⟩

/-- The next byte, if any. -/
def peek (c : Cursor) : Option UInt8 := c.rest.head?

/-- Whether the byte is one of the four blanks of JSON. -/
def isSpace (b : UInt8) : Bool := b = 32 || b = 10 || b = 9 || b = 13

/-- Skip JSON blanks. -/
def skipBlanks (c : Cursor) : Cursor :=
  let rec go : List UInt8 → Nat → Nat → Cursor
    | [], l, k => ⟨[], l, k⟩
    | b :: r, l, k =>
      if b = 10 then go r (l + 1) 0
      else if b = 32 || b = 9 || b = 13 then go r l (k + 1)
      else ⟨b :: r, l, k⟩
  go c.rest c.line c.column

/-- An error at the cursor. -/
def here (c : Cursor) (message : String) : ReadError := ⟨message, c.line, c.column⟩

/-- An error at the next byte, counted as consumed. -/
def ahead (c : Cursor) (message : String) : ReadError := c.bump.here message

end Cursor

open Cursor

/-! ## Messages -/

def eofValue : String := "EOF while parsing a value"
def eofList : String := "EOF while parsing a list"
def eofObject : String := "EOF while parsing an object"
def eofString : String := "EOF while parsing a string"
def expectedColon : String := "expected `:`"
def expectedListEnd : String := "expected `,` or `]`"
def expectedObjectEnd : String := "expected `,` or `\x7d`"
def expectedIdent : String := "expected ident"
def expectedValue : String := "expected value"
def invalidEscape : String := "invalid escape"
def invalidNumber : String := "invalid number"
def outOfRange : String := "number out of range"
def controlInString : String := "control character (\\u0000-\\u001F) found while parsing a string"
def keyNotString : String := "key must be a string"
def loneSurrogate : String := "lone leading surrogate in hex escape"
def trailingComma : String := "trailing comma"
def trailingCharacters : String := "trailing characters"
def hexEscapeEnd : String := "unexpected end of hex escape"
def outOfFuel : String := "recursion limit exceeded"

/-! ## Bytes -/

/-- Whether a byte is an ASCII digit. -/
def isDigit (b : UInt8) : Bool := 48 ≤ b && b ≤ 57

/-- The value of an ASCII hexadecimal digit. -/
def hexValue (b : UInt8) : Option Nat :=
  if 48 ≤ b && b ≤ 57 then some (b.toNat - 48)
  else if 97 ≤ b && b ≤ 102 then some (b.toNat - 87)
  else if 65 ≤ b && b ≤ 70 then some (b.toNat - 55)
  else none

/-- The UTF-8 bytes of a code point. -/
def utf8Bytes (n : Nat) : List UInt8 :=
  if n < 0x80 then [n.toUInt8]
  else if n < 0x800 then [(0xC0 + n / 64).toUInt8, (0x80 + n % 64).toUInt8]
  else if n < 0x10000 then
    [(0xE0 + n / 4096).toUInt8, (0x80 + n / 64 % 64).toUInt8, (0x80 + n % 64).toUInt8]
  else
    [(0xF0 + n / 262144).toUInt8, (0x80 + n / 4096 % 64).toUInt8,
      (0x80 + n / 64 % 64).toUInt8, (0x80 + n % 64).toUInt8]

/-- Text from UTF-8 bytes; bytes that do not decode give the empty text. -/
def textOfBytes (bytes : List UInt8) : String :=
  (String.fromUTF8? ⟨bytes.toArray⟩).getD ""

/-- Consume an expected run of bytes, the rest of a literal such as `null`. -/
def parseIdent (c : Cursor) : List UInt8 → Except ReadError Cursor
  | [] => .ok c
  | b :: more =>
    match c.rest with
    | [] => .error (c.here eofValue)
    | x :: _ => if x = b then parseIdent c.bump more else .error (c.bump.here expectedIdent)

/-- Four hexadecimal digits of a `\u` escape. -/
def hexEscape (c : Cursor) : Read Nat :=
  match c.rest with
  | a :: b :: d :: e :: _ =>
    let c := c.bump.bump.bump.bump
    match hexValue a, hexValue b, hexValue d, hexValue e with
    | some w, some x, some y, some z => .ok (((w * 16 + x) * 16 + y) * 16 + z, c)
    | _, _, _, _ => .error (c.here invalidEscape)
  | _ =>
    let c := c.bump.bump.bump.bump
    .error (c.here eofString)

/-- The code point of a `\u` escape after its `u`, joining a surrogate pair. -/
def unicodeEscape (c : Cursor) : Except ReadError (Nat × Cursor) := do
  let (n, c) ← hexEscape c
  if 0xDC00 ≤ n && n ≤ 0xDFFF then throw (c.here loneSurrogate)
  if n < 0xD800 || n > 0xDBFF then return (n, c)
  match c.peek with
  | none => throw (c.here eofString)
  | some b =>
    if b ≠ 92 then throw (c.bump.here hexEscapeEnd)
    let c := c.bump
    match c.peek with
    | none => throw (c.here eofString)
    | some u =>
      if u ≠ 117 then throw (c.bump.here hexEscapeEnd)
      let (n2, c) ← hexEscape c.bump
      if n2 < 0xDC00 || n2 > 0xDFFF then throw (c.here loneSurrogate)
      return ((n - 0xD800) * 1024 + (n2 - 0xDC00) + 0x10000, c)

/-- The bytes an escape stands for, the backslash already read. -/
def escape (c : Cursor) : Read (List UInt8) :=
  match c.peek with
  | none => .error (c.here eofString)
  | some b =>
    let c := c.bump
    if b = 34 then .ok ([34], c)
    else if b = 92 then .ok ([92], c)
    else if b = 47 then .ok ([47], c)
    else if b = 98 then .ok ([8], c)
    else if b = 102 then .ok ([12], c)
    else if b = 110 then .ok ([10], c)
    else if b = 114 then .ok ([13], c)
    else if b = 116 then .ok ([9], c)
    else if b = 117 then
      match unicodeEscape c with
      | .ok (n, c) => .ok (utf8Bytes n, c)
      | .error e => .error e
    else .error (c.here invalidEscape)

/-- The rest of a string after its opening quote. -/
def parseStr (fuel : Nat) (c : Cursor) (acc : List UInt8) : Read String :=
  match fuel with
  | 0 => .error (c.here outOfFuel)
  | fuel + 1 =>
    match c.peek with
    | none => .error (c.here eofString)
    | some b =>
      if b = 34 then .ok (textOfBytes acc.reverse, c.bump)
      else if b = 92 then
        match escape c.bump with
        | .ok (bytes, c) => parseStr fuel c (bytes.reverse ++ acc)
        | .error e => .error e
      else if b < 32 then .error (c.bump.here controlInString)
      else parseStr fuel c.bump (b :: acc)

/-- Skip the rest of a string after its opening quote, checking escapes but not surrogates. -/
def skipStr (fuel : Nat) (c : Cursor) : Except ReadError Cursor :=
  match fuel with
  | 0 => .error (c.here outOfFuel)
  | fuel + 1 =>
    match c.peek with
    | none => .error (c.here eofString)
    | some b =>
      if b = 34 then .ok c.bump
      else if b = 92 then
        let c := c.bump
        match c.peek with
        | none => .error (c.here eofString)
        | some e =>
          let c := c.bump
          if e = 34 || e = 92 || e = 47 || e = 98 || e = 102 || e = 110 || e = 114 || e = 116 then
            skipStr fuel c
          else if e = 117 then
            match hexEscape c with
            | .ok (_, c) => skipStr fuel c
            | .error err => .error err
          else .error (c.here invalidEscape)
      else if b < 32 then .error (c.here controlInString)
      else skipStr fuel c.bump

/-! ## Numbers -/

/-- A number as the text spells it. -/
inductive Num where
  | unsigned (n : Nat)
  | signed (n : Int)
  | float (f : Float)

/-- The largest unsigned 64-bit number. -/
def u64Max : Nat := Nat.pow 2 64 - 1

/-- The float `significand * 10 ^ exponent` computed the way a fast reader does: the
significand rounded to a float, then multiplied or divided by a power of ten, stepping by
`10 ^ 308` while the exponent is below the table. -/
def floatOfParts (c : Cursor) (positive : Bool) (significand : Nat) (exponent : Int) :
    Except ReadError Float :=
  let rec go : Nat → Float → Int → Except ReadError Float
    | 0, f, _ => .ok f
    | fuel + 1, f, e =>
      if e.natAbs ≤ 308 then
        if e ≥ 0 then
          let g := f * Number.pow10 e.natAbs
          if g.isInf then .error (c.here outOfRange) else .ok g
        else .ok (f / Number.pow10 e.natAbs)
      else if f == 0 then .ok f
      else if e ≥ 0 then .error (c.here outOfRange)
      else go fuel (f / Number.pow10 308) (e + 308)
  match go 8 (UInt64.ofNat significand).toFloat exponent with
  | .ok f => .ok (if positive then f else -f)
  | .error e => .error e

/-- Skip digits. -/
def skipDigits (c : Cursor) : Cursor :=
  let rec go : List UInt8 → Nat → Cursor
    | [], k => ⟨[], c.line, k⟩
    | b :: r, k => if isDigit b then go r (k + 1) else ⟨b :: r, c.line, k⟩
  go c.rest c.column

/-- Read the digits of an exponent; the exponent mark already read. -/
def parseExponent (c : Cursor) (positive : Bool) (significand : Nat) (start : Int) : Read Float :=
  let c := c.bump
  let (positiveExp, c) :=
    match c.peek with
    | some 43 => (true, c.bump)
    | some 45 => (false, c.bump)
    | _ => (true, c)
  match c.peek with
  | none => .error (c.here eofValue)
  | some b =>
    let c := c.bump
    if !isDigit b then .error (c.here invalidNumber) else
    let rec digits : Nat → Cursor → Nat → Read Float
      | 0, c, _ => .error (c.here outOfFuel)
      | fuel + 1, c, exp =>
        match c.peek with
        | some d =>
          if isDigit d then
            let c := c.bump
            let exp := exp * 10 + (d.toNat - 48)
            if exp > 2147483647 then
              if significand ≠ 0 && positiveExp then .error (c.here outOfRange)
              else
                let c := skipDigits c
                .ok (if positive then 0.0 else -0.0, c)
            else digits fuel c exp
          else finish positiveExp c exp
        | none => finish positiveExp c exp
    digits (c.rest.length + 1) c (b.toNat - 48)
where
  finish (positiveExp : Bool) (c : Cursor) (exp : Nat) : Read Float :=
    let e : Int := if positiveExp then start + exp else start - exp
    let e := if e > 2147483647 then 2147483647 else if e < -2147483648 then -2147483648 else e
    match floatOfParts c positive significand e with
    | .ok f => .ok (f, c)
    | .error err => .error err

/-- Read a fraction; the point already seen but not consumed. -/
def parseDecimal (c : Cursor) (positive : Bool) (significand : Nat) (before : Int) : Read Float :=
  let c := c.bump
  let rec digits : Nat → Cursor → Nat → Int → Read Float
    | 0, c, _, _ => .error (c.here outOfFuel)
    | fuel + 1, c, sig, after =>
      match c.peek with
      | some d =>
        if isDigit d then
          let next := sig * 10 + (d.toNat - 48)
          if next > u64Max then
            let c := skipDigits c
            match c.peek with
            | some 101 | some 69 => parseExponent c positive sig (before + after)
            | _ =>
              match floatOfParts c positive sig (before + after) with
              | .ok f => .ok (f, c)
              | .error e => .error e
          else digits fuel c.bump next (after - 1)
        else done c sig after
      | none => done c sig after
  digits (c.rest.length + 1) c significand 0
where
  done (c : Cursor) (sig : Nat) (after : Int) : Read Float :=
    if after = 0 then
      match c.peek with
      | some _ => .error (c.ahead invalidNumber)
      | none => .error (c.ahead eofValue)
    else
      match c.peek with
      | some 101 | some 69 => parseExponent c positive sig (before + after)
      | _ =>
        match floatOfParts c positive sig (before + after) with
        | .ok f => .ok (f, c)
        | .error e => .error e

/-- What follows the whole digits of a number. -/
def parseNumberTail (c : Cursor) (positive : Bool) (significand : Nat) : Read Num :=
  match c.peek with
  | some 46 =>
    match parseDecimal c positive significand 0 with
    | .ok (f, c) => .ok (.float f, c)
    | .error e => .error e
  | some 101 | some 69 =>
    match parseExponent c positive significand 0 with
    | .ok (f, c) => .ok (.float f, c)
    | .error e => .error e
  | _ =>
    if positive then .ok (.unsigned significand, c)
    else if significand = 0 then .ok (.float (-0.0), c)
    else if significand ≤ Nat.pow 2 63 then .ok (.signed (-(significand : Int)), c)
    else .ok (.float (-(UInt64.ofNat significand).toFloat), c)

/-- Digits beyond 64 bits: counted into the exponent and otherwise dropped. -/
def parseLongInteger (c : Cursor) (positive : Bool) (significand : Nat) : Read Num :=
  let rec go : Nat → Cursor → Int → Read Num
    | 0, c, _ => .error (c.here outOfFuel)
    | fuel + 1, c, exp =>
      match c.peek with
      | some d =>
        if isDigit d then go fuel c.bump (exp + 1)
        else if d = 46 then
          match parseDecimal c positive significand exp with
          | .ok (f, c) => .ok (.float f, c)
          | .error e => .error e
        else if d = 101 || d = 69 then
          match parseExponent c positive significand exp with
          | .ok (f, c) => .ok (.float f, c)
          | .error e => .error e
        else float c exp
      | none => float c exp
  go (c.rest.length + 1) c 0
where
  float (c : Cursor) (exp : Int) : Read Num :=
    match floatOfParts c positive significand exp with
    | .ok f => .ok (.float f, c)
    | .error e => .error e

/-- Read a number after its optional minus sign. -/
def parseInteger (c : Cursor) (positive : Bool) : Read Num :=
  match c.peek with
  | none => .error (c.here eofValue)
  | some b =>
    let c := c.bump
    if b = 48 then
      match c.peek with
      | some d => if isDigit d then .error (c.ahead invalidNumber) else parseNumberTail c positive 0
      | none => parseNumberTail c positive 0
    else if isDigit b then
      let rec digits : Nat → Cursor → Nat → Read Num
        | 0, c, _ => .error (c.here outOfFuel)
        | fuel + 1, c, sig =>
          match c.peek with
          | some d =>
            if isDigit d then
              let next := sig * 10 + (d.toNat - 48)
              if next > u64Max then parseLongInteger c positive sig
              else digits fuel c.bump next
            else parseNumberTail c positive sig
          | none => parseNumberTail c positive sig
      digits (c.rest.length + 1) c (b.toNat - 48)
    else .error (c.here invalidNumber)

/-- Skip a number after its optional minus sign, checking its form only. -/
def skipNumber (c : Cursor) : Except ReadError Cursor :=
  let first := c.peek
  let c := c.bump
  let afterWhole : Except ReadError Cursor :=
    match first with
    | some 48 =>
      match c.peek with
      | some d => if isDigit d then .error (c.ahead invalidNumber) else .ok c
      | none => .ok c
    | some d => if isDigit d then .ok (skipDigits c) else .error (c.here invalidNumber)
    | none => .error (c.here invalidNumber)
  let skipExponent (c : Cursor) : Except ReadError Cursor :=
    let c := c.bump
    let c := match c.peek with
      | some 43 | some 45 => c.bump
      | _ => c
    match c.peek with
    | some d => if isDigit d then .ok (skipDigits c.bump) else .error (c.bump.here invalidNumber)
    | none => .error (c.here invalidNumber)
  match afterWhole with
  | .error e => .error e
  | .ok c =>
    match c.peek with
    | some 46 =>
      let c := c.bump
      match c.peek with
      | some d =>
        if isDigit d then
          let c := skipDigits c
          match c.peek with
          | some 101 | some 69 => skipExponent c
          | _ => .ok c
        else .error (c.ahead invalidNumber)
      | none => .error (c.ahead invalidNumber)
    | some 101 | some 69 => skipExponent c
    | _ => .ok c

/-! ## Values of the wrong kind -/

/-- The error for a value that does not fit `shape`, read in full when it is a scalar. -/
def wrongKind (fuel : Nat) (c : Cursor) (shape : Shape) : ReadError :=
  let fail (found : Found) (c : Cursor) : ReadError := c.here (invalidType "null" found shape)
  match c.peek with
  | some 110 => match parseIdent c.bump [117, 108, 108] with
    | .ok c => fail .unit c
    | .error e => e
  | some 116 => match parseIdent c.bump [114, 117, 101] with
    | .ok c => fail (.bool true) c
    | .error e => e
  | some 102 => match parseIdent c.bump [97, 108, 115, 101] with
    | .ok c => fail (.bool false) c
    | .error e => e
  | some 45 => match parseInteger c.bump false with
    | .ok (n, c) => fail (numFound n) c
    | .error e => e
  | some 34 => match parseStr fuel c.bump [] with
    | .ok (s, c) => fail (.str s) c
    | .error e => e
  | some 91 => fail .seq c
  | some 123 => fail .map c
  | some b =>
    if isDigit b then
      match parseInteger c true with
      | .ok (n, c) => fail (numFound n) c
      | .error e => e
    else c.ahead expectedValue
  | none => c.ahead expectedValue
where
  numFound : Num → Found
    | .unsigned n => .unsigned n
    | .signed n => .signed n
    | .float f => .float f

/-! ## Skipping values -/

mutual

/-- Skip one value of any kind, checking that it is well formed. -/
def skipValue (fuel : Nat) (c : Cursor) : Except ReadError Cursor :=
  match fuel with
  | 0 => .error (c.here outOfFuel)
  | fuel + 1 =>
    let c := c.skipBlanks
    match c.peek with
    | none => .error (c.ahead eofValue)
    | some 110 => parseIdent c.bump [117, 108, 108]
    | some 116 => parseIdent c.bump [114, 117, 101]
    | some 102 => parseIdent c.bump [97, 108, 115, 101]
    | some 45 => skipNumber c.bump
    | some 34 => skipStr fuel c.bump
    | some 91 =>
      let c := c.bump.skipBlanks
      match c.peek with
      | some 93 => .ok c.bump
      | none => .error (c.ahead eofList)
      | some _ => skipItems fuel c
    | some 123 =>
      let c := c.bump.skipBlanks
      match c.peek with
      | some 125 => .ok c.bump
      | none => .error (c.ahead eofObject)
      | some _ => skipMembers fuel c
    | some b => if isDigit b then skipNumber c else .error (c.ahead expectedValue)

/-- Skip the elements of an array up to and including its closing bracket. -/
def skipItems (fuel : Nat) (c : Cursor) : Except ReadError Cursor :=
  match fuel with
  | 0 => .error (c.here outOfFuel)
  | fuel + 1 =>
    match skipValue fuel c with
    | .error e => .error e
    | .ok c =>
      let c := c.skipBlanks
      match c.peek with
      | some 44 => skipItems fuel c.bump
      | some 93 => .ok c.bump
      | none => .error (c.ahead eofList)
      | some _ => .error (c.ahead expectedListEnd)

/-- Skip the members of an object up to and including its closing brace. -/
def skipMembers (fuel : Nat) (c : Cursor) : Except ReadError Cursor :=
  match fuel with
  | 0 => .error (c.here outOfFuel)
  | fuel + 1 =>
    let c := c.skipBlanks
    match c.peek with
    | none => .error (c.ahead eofValue)
    | some 34 =>
      match skipStr fuel c.bump with
      | .error e => .error e
      | .ok c =>
        let c := c.skipBlanks
        match c.peek with
        | none => .error (c.ahead eofObject)
        | some 58 =>
          match skipValue fuel c.bump with
          | .error e => .error e
          | .ok c =>
            let c := c.skipBlanks
            match c.peek with
            | some 44 => skipMembers fuel c.bump
            | some 125 => .ok c.bump
            | none => .error (c.ahead eofObject)
            | some _ => .error (c.ahead expectedObjectEnd)
        | some _ => .error (c.ahead expectedColon)
    | some _ => .error (c.ahead keyNotString)

end

/-! ## Containers -/

/-- Where a cursor stands after looking for the end of an array: blanks skipped, and the
bracket, or a comma and the blanks after it, consumed. -/
def afterSeqEnd (c : Cursor) : Cursor :=
  let c := c.skipBlanks
  match c.peek with
  | some 93 => c.bump
  | some 44 => c.bump.skipBlanks
  | _ => c

/-- Check the end of an array whose elements have all been read. -/
def endSeq (c : Cursor) : Except ReadError Cursor :=
  let c := c.skipBlanks
  match c.peek with
  | some 93 => .ok c.bump
  | some 44 =>
    let c := c.bump.skipBlanks
    match c.peek with
    | some 93 => .error (c.ahead trailingComma)
    | _ => .error (c.ahead trailingCharacters)
  | some _ => .error (c.ahead trailingCharacters)
  | none => .error (c.ahead eofList)

/-- Where a cursor stands after looking for the end of an object. -/
def afterMapEnd (c : Cursor) : Cursor :=
  let c := c.skipBlanks
  match c.peek with
  | some 125 => c.bump
  | _ => c

/-- Check the end of an object whose members have all been read. -/
def endMap (c : Cursor) : Except ReadError Cursor :=
  let c := c.skipBlanks
  match c.peek with
  | some 125 => .ok c.bump
  | some 44 => .error (c.ahead trailingComma)
  | some _ => .error (c.ahead trailingCharacters)
  | none => .error (c.ahead eofObject)

/-- Whether another element of an array follows; `none` at the closing bracket. -/
def nextItem (c : Cursor) (first : Bool) : Except ReadError (Option Cursor) :=
  let c := c.skipBlanks
  match c.peek with
  | none => .error (c.ahead eofList)
  | some 93 => .ok none
  | some 44 =>
    if first then .ok (some c) else
    let c := c.bump.skipBlanks
    match c.peek with
    | some 93 => .error (c.ahead trailingComma)
    | some _ => .ok (some c)
    | none => .error (c.ahead eofValue)
  | some _ => if first then .ok (some c) else .error (c.ahead expectedListEnd)

/-- The next key of an object, the colon after it not yet read; `none` at the closing brace. -/
def nextKey (fuel : Nat) (c : Cursor) (first : Bool) : Except ReadError (Option (String × Cursor)) :=
  let c := c.skipBlanks
  let key (c : Cursor) : Except ReadError (Option (String × Cursor)) :=
    match c.peek with
    | some 34 =>
      match parseStr fuel c.bump [] with
      | .ok (k, c) => .ok (some (k, c))
      | .error e => .error e
    | some 125 => .error (c.ahead trailingComma)
    | some _ => .error (c.ahead keyNotString)
    | none => .error (c.ahead eofValue)
  match c.peek with
  | some 125 => .ok none
  | some 44 => if first then key c else key c.bump.skipBlanks
  | some _ => if first then key c else .error (c.ahead expectedObjectEnd)
  | none => .error (c.ahead eofObject)

/-- Read the colon between a key and its value. -/
def colon (c : Cursor) : Except ReadError Cursor :=
  let c := c.skipBlanks
  match c.peek with
  | some 58 => .ok c.bump
  | some _ => .error (c.ahead expectedColon)
  | none => .error (c.ahead eofObject)

/-- How reading the inside of a record ended: with its fields, with an error that has its
place, or with a complaint about the record as a whole that takes its place from where the
record's end is looked for. -/
inductive Inside where
  | done (fields : List (String × Datum)) (c : Cursor)
  | failed (e : ReadError)
  | refused (message : String) (c : Cursor)

/-! ## Reading against a shape -/

mutual

/-- Read one value against a shape. -/
def readValue (fuel : Nat) (shape : Shape) (c : Cursor) : Read Datum :=
  match fuel with
  | 0 => .error (c.here outOfFuel)
  | fuel + 1 =>
    let c := c.skipBlanks
    match shape with
    | .any =>
      match skipValue fuel c with
      | .ok c => .ok (.skipped, c)
      | .error e => .error e
    | .maybe inner =>
      match c.peek with
      | some 110 =>
        match parseIdent c.bump [117, 108, 108] with
        | .ok c => .ok (.none, c)
        | .error e => .error e
      | _ =>
        match readValue fuel inner c with
        | .ok (d, c) => .ok (.some d, c)
        | .error e => .error e
    | .flag =>
      match c.peek with
      | none => .error (c.ahead eofValue)
      | some 116 =>
        match parseIdent c.bump [114, 117, 101] with
        | .ok c => .ok (.flag true, c)
        | .error e => .error e
      | some 102 =>
        match parseIdent c.bump [97, 108, 115, 101] with
        | .ok c => .ok (.flag false, c)
        | .error e => .error e
      | some _ => .error (wrongKind fuel c shape)
    | .text _ =>
      match c.peek with
      | none => .error (c.ahead eofValue)
      | some 34 =>
        match parseStr fuel c.bump [] with
        | .ok (s, c) => .ok (.text s, c)
        | .error e => .error e
      | some _ => .error (wrongKind fuel c shape)
    | .count =>
      let visit (r : Read Num) : Read Datum :=
        match r with
        | .ok (.unsigned n, c) => .ok (.count n, c)
        | .ok (.signed n, c) => .error (c.here (invalidValue "null" (.signed n) "u64"))
        | .ok (.float f, c) => .error (c.here (invalidType "null" (.float f) shape))
        | .error e => .error e
      match c.peek with
      | none => .error (c.ahead eofValue)
      | some 45 => visit (parseInteger c.bump false)
      | some b => if isDigit b then visit (parseInteger c true) else .error (wrongKind fuel c shape)
    | .choice _ options =>
      match c.peek with
      | none => .error (c.ahead eofValue)
      | some 34 =>
        match parseStr fuel c.bump [] with
        | .ok (s, c) =>
          if options.contains s then .ok (.choice s, c)
          else .error (c.here (unknownVariant s options))
        | .error e => .error e
      | some _ => .error (c.ahead expectedValue)
    | .list item =>
      match c.peek with
      | none => .error (c.ahead eofValue)
      | some 91 =>
        match readItems fuel item c.bump true [] with
        | .error e => .error e
        | .ok (items, c) =>
          match endSeq c with
          | .ok c => .ok (.list items, c)
          | .error e => .error e
      | some _ => .error (wrongKind fuel c shape)
    | .record _ fields =>
      match c.peek with
      | none => .error (c.ahead eofValue)
      | some 91 =>
        match readPositional fuel shape fields 0 c.bump true [] with
        | .failed e => .error e
        | .refused message c => .error ((afterSeqEnd c).here message)
        | .done got c =>
          match endSeq c with
          | .ok c => .ok (.record got, c)
          | .error e => .error e
      | some 123 =>
        match readMembers fuel fields c.bump true [] with
        | .failed e => .error e
        | .refused message c => .error ((afterMapEnd c).here message)
        | .done got c =>
          match endMap c with
          | .ok c => .ok (.record got, c)
          | .error e => .error e
      | some _ => .error (wrongKind fuel c shape)

/-- Read the elements of an array against one shape, up to its closing bracket. -/
def readItems (fuel : Nat) (item : Shape) (c : Cursor) (first : Bool) (acc : List Datum) :
    Read (List Datum) :=
  match fuel with
  | 0 => .error (c.here outOfFuel)
  | fuel + 1 =>
    match nextItem c first with
    | .error e => .error e
    | .ok none => .ok (acc.reverse, c.skipBlanks)
    | .ok (some c) =>
      match readValue fuel item c with
      | .error e => .error e
      | .ok (d, c) => readItems fuel item c false (d :: acc)

/-- Read a record written as an array: its fields by position. A missing trailing field is
fine when it may be left out, and otherwise the array is too short. -/
def readPositional (fuel : Nat) (shape : Shape) :
    List (String × Shape × Bool) → Nat → Cursor → Bool → List (String × Datum) → Inside
  | [], _, c, _, acc => .done acc.reverse c
  | (key, fieldShape, optional) :: rest, index, c, first, acc =>
    match fuel with
    | 0 => .failed (c.here outOfFuel)
    | fuel + 1 =>
      match nextItem c first with
      | .error e => .failed e
      | .ok none =>
        if optional then readPositional fuel shape rest (index + 1) c first acc
        else .refused (invalidLength index shape) c
      | .ok (some c) =>
        match readValue fuel fieldShape c with
        | .error e => .failed e
        | .ok (d, c) => readPositional fuel shape rest (index + 1) c false ((key, d) :: acc)

/-- Read a record written as an object, up to its closing brace: known fields by name,
unknown ones skipped, a field given twice refused, and then every required field present. -/
def readMembers (fuel : Nat) (fields : List (String × Shape × Bool)) (c : Cursor) (first : Bool)
    (acc : List (String × Datum)) : Inside :=
  match fuel with
  | 0 => .failed (c.here outOfFuel)
  | fuel + 1 =>
    match nextKey fuel c first with
    | .error e => .failed e
    | .ok none =>
      let missing := fields.find? fun (key, fieldShape, optional) =>
        !optional && !fieldShape.isMaybe && !(acc.any fun (k, _) => k == key)
      match missing with
      | some (key, _, _) => .refused (missingField key) c
      | none => .done acc.reverse c
    | .ok (some (key, c)) =>
      match fields.find? fun (k, _, _) => k == key with
      | some (_, fieldShape, _) =>
        if acc.any fun (k, _) => k == key then .refused (duplicateField key) c
        else
          match colon c with
          | .error e => .failed e
          | .ok c =>
            match readValue fuel fieldShape c with
            | .error e => .failed e
            | .ok (d, c) => readMembers fuel fields c false ((key, d) :: acc)
      | none =>
        match colon c with
        | .error e => .failed e
        | .ok c =>
          match skipValue fuel c with
          | .error e => .failed e
          | .ok c => readMembers fuel fields c false acc

end

/-- Read a whole text as one value of the shape, with nothing but blanks after it. -/
def readDocument (shape : Shape) (text : String) : Except ReadError Datum :=
  let bytes := text.toUTF8.toList
  match readValue (2 * bytes.length + 16) shape (Cursor.start bytes) with
  | .error e => .error e
  | .ok (d, c) =>
    let c := c.skipBlanks
    match c.peek with
    | some _ => .error (c.ahead trailingCharacters)
    | none => .ok d

/-- Read the first value of the shape at the start of a text; what follows it is not looked at.
`none` when the text holds only blanks. -/
def readLeading (shape : Shape) (text : String) : Option (Except ReadError Datum) :=
  let bytes := text.toUTF8.toList
  let c := (Cursor.start bytes).skipBlanks
  match c.peek with
  | none => none
  | some _ =>
    match readValue (2 * bytes.length + 16) shape c with
    | .error e => some (.error e)
    | .ok (d, _) => some (.ok d)

end Provisioning.Json
