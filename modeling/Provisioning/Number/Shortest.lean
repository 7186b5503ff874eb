import Provisioning.Number.Binary64
/-!
The shortest decimal text of a binary64 number.

A finite number stands for the interval of reals that round to it: halfway
to each neighbour, ends included when its significand is even. The text
shown for it has the fewest significant digits of any decimal in that
interval, and of two such decimals the one nearer the number. It is written
positionally when the decimal point falls within sixteen digits of the
first digit (with `.0` after a whole number), and otherwise as one digit,
the remaining digits after a point, and a signed exponent (`1.5e+19`,
`2e-7`).
-/

namespace Provisioning.Number

/-- A positive rational `num / den`. -/
structure Ratio where
  num : Nat
  den : Nat

/-- `a ≤ b` for two ratios with positive denominators. -/
def Ratio.le (a b : Ratio) : Bool := a.num * b.den ≤ b.num * a.den

/-- `a < b` for two ratios with positive denominators. -/
def Ratio.lt (a b : Ratio) : Bool := a.num * b.den < b.num * a.den

/-- `t * 10 ^ j` as a ratio. -/
def decimal (t : Nat) (j : Int) : Ratio :=
  if j < 0 then ⟨t, Nat.pow 10 j.natAbs⟩ else ⟨t * Nat.pow 10 j.natAbs, 1⟩

/-- `m * 2 ^ q` as a ratio. -/
def binary (m : Nat) (q : Int) : Ratio :=
  if q < 0 then ⟨m, Nat.pow 2 q.natAbs⟩ else ⟨m * Nat.pow 2 q.natAbs, 1⟩

/-- The exponent `E` with `10 ^ E ≤ v < 10 ^ (E + 1)`, searched within the binary64 range. -/
def decimalExponent (v : Ratio) : Int :=
  let below (e : Int) : Bool := (decimal 1 e).le v
  let rec up : Nat → Int → Int
    | 0, e => e
    | fuel + 1, e => if below (e + 1) then up fuel (e + 1) else e
  let rec down : Nat → Int → Int
    | 0, e => e
    | fuel + 1, e => if below e then e else down fuel (e - 1)
  if below 0 then up 330 0 else down 330 (-1)

/-- The distance between two ratios, as a ratio. -/
def Ratio.dist (a b : Ratio) : Ratio :=
  let x := a.num * b.den
  let y := b.num * a.den
  ⟨if x ≤ y then y - x else x - y, a.den * b.den⟩

/-- The digits of the shortest decimal for `m * 2 ^ q` (`m > 0`), and the exponent of its last
digit: the decimal is `digits * 10 ^ exponent`. `lowerCloser` says the neighbour below is half
as far as the one above, which happens at the bottom of a binade. -/
def shortestDigits (m : Nat) (q : Int) (lowerCloser : Bool) : Nat × Int :=
  let v := binary m q
  let inclusive := m % 2 = 0
  let lo := if lowerCloser then binary (4 * m - 1) (q - 2) else binary (2 * m - 1) (q - 1)
  let hi := binary (2 * m + 1) (q - 1)
  let inside (c : Ratio) : Bool :=
    if inclusive then lo.le c && c.le hi else lo.lt c && c.lt hi
  let top := decimalExponent v
  let rec search : Nat → Nat → Nat × Int
    | 0, _ => (m, q)
    | fuel + 1, n =>
      let j := top - (n : Int) + 1
      let s := decimal 1 j
      let below := v.num * s.den / (v.den * s.num)
      let c₁ := decimal below j
      let c₂ := decimal (below + 1) j
      match inside c₁, inside c₂ with
      | true, true =>
        if (c₂.dist v).lt (c₁.dist v) then (below + 1, j)
        else if (c₁.dist v).lt (c₂.dist v) then (below, j)
        else if below % 2 = 0 then (below, j) else (below + 1, j)
      | true, false => (below, j)
      | false, true => (below + 1, j)
      | false, false => search fuel (n + 1)
  search 17 1

/-- Strip trailing zeros from a digit string, raising the exponent of the last digit. -/
def trimZeros (t : Nat) (j : Int) : Nat × Int :=
  let rec go : Nat → Nat → Int → Nat × Int
    | 0, t, j => (t, j)
    | fuel + 1, t, j => if t ≠ 0 && t % 10 = 0 then go fuel (t / 10) (j + 1) else (t, j)
  go 20 t j

/-- Decimal text of digits `ds` (no trailing zeros) with `point` digits before the point. -/
def layout (ds : String) (point : Int) : String :=
  let n : Int := ds.length
  let zeros (k : Nat) : String := String.ofList (List.replicate k '0')
  if 0 ≤ point - n && point ≤ 16 then
    ds ++ zeros (point - n).toNat ++ ".0"
  else if 0 < point && point ≤ 16 then
    String.ofList (ds.toList.take point.toNat) ++ "." ++ String.ofList (ds.toList.drop point.toNat)
  else if -5 < point && point ≤ 0 then
    "0." ++ zeros point.natAbs ++ ds
  else
    let exp := point - 1
    let expText := (if exp < 0 then "-" else "+") ++ toString exp.natAbs
    match ds.toList with
    | [d] => d.toString ++ "e" ++ expText
    | d :: rest => d.toString ++ "." ++ String.ofList rest ++ "e" ++ expText
    | [] => "0e" ++ expText

/-- The shortest decimal text of a finite float; infinities and NaN are written `inf`, `-inf`
and `NaN`. -/
def shortest (f : Float) : String :=
  match decompose f with
  | none => if f.isNaN then "NaN" else if f < 0 then "-inf" else "inf"
  | some (sign, m, q) =>
    let signText := if sign then "-" else ""
    if m = 0 then signText ++ "0.0" else
    let lowerCloser := m = Nat.pow 2 52 && q > -1074
    let (t, j) := shortestDigits m q lowerCloser
    let (t, j) := trimZeros t j
    let ds := toString t
    signText ++ layout ds (j + ds.length)

/-- The shortest decimal text of a float, always positional (`18446744073709552000.0`,
`0.00015`); a whole number gets `.0`, and infinities and NaN are written `inf`, `-inf` and
`NaN`. -/
def positional (f : Float) : String :=
  match decompose f with
  | none => if f.isNaN then "NaN" else if f < 0 then "-inf" else "inf"
  | some (sign, m, q) =>
    let signText := if sign then "-" else ""
    if m = 0 then signText ++ "0.0" else
    let lowerCloser := m = Nat.pow 2 52 && q > -1074
    let (t, j) := shortestDigits m q lowerCloser
    let (t, j) := trimZeros t j
    let ds := toString t
    let point : Int := j + ds.length
    let zeros (k : Nat) : String := String.ofList (List.replicate k '0')
    signText ++
      if point ≥ ds.length then ds ++ zeros (point - ds.length).toNat ++ ".0"
      else if 0 < point then
        String.ofList (ds.toList.take point.toNat) ++ "." ++ String.ofList (ds.toList.drop point.toNat)
      else "0." ++ zeros point.natAbs ++ ds

end Provisioning.Number
