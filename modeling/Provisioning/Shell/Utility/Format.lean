/-!
# printf formats

The conversions of `printf`: `%s`, `%b`, `%c`, `%d` and `%i`, `%u`, `%o`, `%x`,
`%X` and `%%`, each with the flags `-` (left-justify), `0` (pad with zeros),
`+` and space (sign of positive numbers), a width and a precision. The format
of the shell's `printf` also has backslash escapes, and it is used again from
its start while arguments are left. Readers take fuel of the text's length,
since each step reads at least one character.
-/

namespace Provisioning.Shell

/-- One conversion of a format: flags, width, precision and the letter. -/
structure Conversion where
  flags : List Char
  width : Nat
  precision : Option Nat
  letter : Char
  deriving Repr, Inhabited

/-- A piece of a format: text, or a conversion. -/
inductive FormatPiece where
  | text (s : String)
  | conv (c : Conversion)
  deriving Repr, Inhabited

/-- The value of octal digits. -/
def octalValue (ds : List Char) : Nat := ds.foldl (fun n d => n * 8 + (d.toNat - '0'.toNat)) 0

/-- Whether a character is an octal digit. -/
def isOctal (c : Char) : Bool := '0' ≤ c && c ≤ '7'

/-- The character a one-letter escape such as `\n` stands for. -/
def escapeLetter : Char → Option Char
  | 'n' => some '\n'
  | 't' => some '\t'
  | '\\' => some '\\'
  | 'a' => some (Char.ofNat 7)
  | 'b' => some (Char.ofNat 8)
  | 'f' => some (Char.ofNat 12)
  | 'r' => some '\r'
  | 'v' => some (Char.ofNat 11)
  | _ => none

/-- The text of backslash escapes, `\n`, `\t`, `\\`, `\a`, `\b`, `\f`, `\r`,
`\v` and octal `\NNN` (with `zeroLead`, `\0NNN`, as `%b` and `echo` write it),
and whether `\c` asked to stop all output there. -/
def unescape (zeroLead : Bool) : Nat → List Char → List Char → List Char × Bool
  | 0, _, acc => (acc.reverse, false)
  | _, [], acc => (acc.reverse, false)
  | fuel + 1, '\\' :: c :: rest, acc =>
    match escapeLetter c with
    | some ch => unescape zeroLead fuel rest (ch :: acc)
    | none =>
      if c == 'c' then (acc.reverse, true)
      else if isOctal c then
        let body := if zeroLead && c == '0' then rest else c :: rest
        let ds := (body.takeWhile isOctal).take 3
        unescape zeroLead fuel (body.drop ds.length) (Char.ofNat (octalValue ds % 256) :: acc)
      else unescape zeroLead fuel rest (c :: '\\' :: acc)
  | fuel + 1, c :: rest, acc => unescape zeroLead fuel rest (c :: acc)

/-- A text with its escapes replaced, and whether `\c` stopped it. -/
def unescapeText (zeroLead : Bool) (s : String) : String × Bool :=
  let (cs, stop) := unescape zeroLead (s.length + 1) s.toList []
  (String.ofList cs, stop)

/-- The pieces of a format text. -/
def formatPieces : Nat → List Char → List Char → List FormatPiece
  | 0, _, _ => []
  | _, [], acc => if acc.isEmpty then [] else [.text (String.ofList acc.reverse)]
  | fuel + 1, '%' :: '%' :: rest, acc => formatPieces fuel rest ('%' :: acc)
  | fuel + 1, '%' :: rest, acc =>
    let (flags, r1) := rest.span fun c => c == '-' || c == '0' || c == '+' || c == ' ' || c == '#'
    let (wd, r2) := r1.span Char.isDigit
    let (prec, r3) := match r2 with
      | '.' :: more =>
        let (pd, r) := more.span Char.isDigit
        (some ((String.ofList pd).toNat?.getD 0), r)
      | _ => (none, r2)
    let pre : List FormatPiece := if acc.isEmpty then [] else [.text (String.ofList acc.reverse)]
    match r3 with
    | l :: more =>
      pre ++ .conv ⟨flags, (String.ofList wd).toNat?.getD 0, prec, l⟩ :: formatPieces fuel more []
    | [] => pre ++ [.text ("%" ++ String.ofList (flags ++ wd))]
  | fuel + 1, c :: rest, acc => formatPieces fuel rest (c :: acc)

/-- The pieces of a format. -/
def parseFormat (fmt : String) : List FormatPiece := formatPieces (fmt.length + 1) fmt.toList []

/-- A text padded to a width, on the left or (with `-`) on the right. -/
def padTo (flags : List Char) (width : Nat) (s : String) (zeros : Bool) : String :=
  let fill := width - s.length
  if fill == 0 then s
  else if flags.contains '-' then s ++ String.ofList (List.replicate fill ' ')
  else if zeros && flags.contains '0' then
    match s.toList with
    | '-' :: rest => "-" ++ String.ofList (List.replicate fill '0') ++ String.ofList rest
    | '+' :: rest => "+" ++ String.ofList (List.replicate fill '0') ++ String.ofList rest
    | cs => String.ofList (List.replicate fill '0') ++ String.ofList cs
  else String.ofList (List.replicate fill ' ') ++ s

/-- Digits of a number in a base, lower case. -/
def digitsIn (base : Nat) (n : Nat) (upper : Bool) : String :=
  let ds := Nat.toDigits base n
  String.ofList (if upper then ds.map Char.toUpper else ds)

/-- The leading integer of an argument, as `printf` reads it: blanks, a sign,
digits; a quote before a character gives its code. `none` when there are no
digits or something follows them. -/
def numberArg (s : String) : Option Int :=
  let cs := s.toList.dropWhile (fun c => c == ' ' || c == '\t')
  match cs with
  | '\'' :: c :: _ | '"' :: c :: _ => some c.toNat
  | _ =>
    let (neg, body) := match cs with
      | '-' :: r => (true, r)
      | '+' :: r => (false, r)
      | r => (false, r)
    let (ds, rest) := body.span Char.isDigit
    if ds.isEmpty || !rest.isEmpty then none
    else
      let n : Int := (String.ofList ds).toNat?.getD 0
      some (if neg then -n else n)

/-- One conversion applied to one argument; the flag says whether the argument
was a number where one was wanted. -/
def convert (c : Conversion) (arg : String) : String × Bool :=
  match c.letter with
  | 's' =>
    let s := match c.precision with
      | some p => String.ofList (arg.toList.take p)
      | none => arg
    (padTo c.flags c.width s false, true)
  | 'b' => (padTo c.flags c.width (unescapeText true arg).1 false, true)
  | 'c' => (padTo c.flags c.width (String.ofList (arg.toList.take 1)) false, true)
  | 'd' | 'i' | 'u' | 'o' | 'x' | 'X' =>
    let (n, good) := if arg.isEmpty then ((0 : Int), true) else
      match numberArg arg with
      | some n => (n, true)
      | none => (0, false)
    let body := match c.letter with
      | 'o' => digitsIn 8 n.natAbs false
      | 'x' => digitsIn 16 n.natAbs false
      | 'X' => digitsIn 16 n.natAbs true
      | _ => toString n.natAbs
    let body := match c.precision with
      | some p => String.ofList (List.replicate (p - body.length) '0') ++ body
      | none => body
    let sign := if n < 0 then "-" else if c.flags.contains '+' then "+"
      else if c.flags.contains ' ' then " " else ""
    (padTo c.flags c.width (sign ++ body) c.precision.isNone, good)
  | l => ("%" ++ String.singleton l, true)

/-- Apply the pieces once, taking arguments from the front: the text, the
arguments left, whether every number was good, and whether the pieces had a
conversion at all. -/
def formatOnce (pieces : List FormatPiece) (args : List String) (shell : Bool) :
    String × List String × Bool × Bool :=
  pieces.foldl (fun (out, args, good, used) p =>
    match p with
    | .text s => (out ++ (if shell then (unescapeText false s).1 else s), args, good, used)
    | .conv c =>
      let (a, rest) := match args with
        | a :: rest => (a, rest)
        | [] => ("", [])
      let (s, ok) := convert c a
      (out ++ s, rest, good && ok, true)) ("", args, true, false)

/-- The shell's `printf`: the format applied again while arguments are left.
Returns the text and whether every number was good. -/
def printfText (fmt : String) (args : List String) : String × Bool :=
  go (args.length + 1) args "" true
where
  /-- Apply the format while arguments remain; always at least once. -/
  go : Nat → List String → String → Bool → String × Bool
    | 0, _, out, good => (out, good)
    | fuel + 1, args, out, good =>
      let (s, rest, ok, used) := formatOnce (parseFormat fmt) args true
      if rest.isEmpty || !used || rest.length == args.length then (out ++ s, good && ok)
      else go fuel rest (out ++ s) (good && ok)

end Provisioning.Shell
