/-!
# Reading bytes as text, replacing what is not UTF-8

Bytes that do not form UTF-8 are shown as U+FFFD, one replacement for each
maximal part of a sequence that could have begun a character (the Unicode
recommendation for substitution), so that text read this way keeps every
valid character and marks every fault once.
-/

namespace Provisioning.Text

/-- Whether a byte continues a sequence. -/
def isContinuation (b : UInt8) : Bool := 0x80 ≤ b && b ≤ 0xBF

/-- The range the second byte of a sequence must lie in, after its first byte,
and how many continuation bytes follow it; `none` when the byte cannot start
a sequence of more than one byte. -/
def leadRange (b : UInt8) : Option (UInt8 × UInt8 × Nat) :=
  if 0xC2 ≤ b && b ≤ 0xDF then some (0x80, 0xBF, 0)
  else if b == 0xE0 then some (0xA0, 0xBF, 1)
  else if 0xE1 ≤ b && b ≤ 0xEC then some (0x80, 0xBF, 1)
  else if b == 0xED then some (0x80, 0x9F, 1)
  else if 0xEE ≤ b && b ≤ 0xEF then some (0x80, 0xBF, 1)
  else if b == 0xF0 then some (0x90, 0xBF, 2)
  else if 0xF1 ≤ b && b ≤ 0xF3 then some (0x80, 0xBF, 2)
  else if b == 0xF4 then some (0x80, 0x8F, 2)
  else none

/-- The code point of a well-formed sequence. -/
def codePoint (bs : List UInt8) : Nat :=
  match bs with
  | [a, b] => (a.toNat % 32) * 64 + b.toNat % 64
  | [a, b, c] => (a.toNat % 16) * 4096 + (b.toNat % 64) * 64 + c.toNat % 64
  | [a, b, c, d] => (a.toNat % 8) * 262144 + (b.toNat % 64) * 4096 + (c.toNat % 64) * 64 + d.toNat % 64
  | _ => 0xFFFD

/-- How many of the continuation bytes wanted are there, at most `n`. -/
def takeContinuations : Nat → List UInt8 → Nat
  | 0, _ => 0
  | n + 1, b :: rest => if isContinuation b then takeContinuations n rest + 1 else 0
  | _ + 1, [] => 0

/-- The text of bytes, with faults replaced. -/
def decodeLossy (bytes : List UInt8) : String :=
  String.ofList (go bytes.length bytes [])
where
  /-- Decode with `fuel` at least the number of bytes left. -/
  go : Nat → List UInt8 → List Char → List Char
    | 0, _, acc => acc.reverse
    | _, [], acc => acc.reverse
    | fuel + 1, b :: rest, acc =>
      if b < 0x80 then go fuel rest (Char.ofNat b.toNat :: acc)
      else
        match leadRange b with
        | none => go fuel rest ('�' :: acc)
        | some (lo, hi, more) =>
          match rest with
          | c :: rest' =>
            if lo ≤ c && c ≤ hi then
              let k := takeContinuations more rest'
              if k == more then
                go fuel (rest'.drop more) (Char.ofNat (codePoint (b :: c :: rest'.take more)) :: acc)
              else go fuel (rest'.drop k) ('�' :: acc)
            else go fuel rest ('�' :: acc)
          | [] => go fuel [] ('�' :: acc)

example : decodeLossy [104, 105] = "hi" := by decide +kernel

end Provisioning.Text
