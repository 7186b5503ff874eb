/-!
Binary64 numbers from exact ratios.

Readers of decimal text need the binary64 value nearest to a ratio of two
natural numbers, and a table of the powers of ten as binary64 values. Both
are computed here with exact natural-number arithmetic: the ratio is scaled
by a power of two until its integer part has 53 bits (or the exponent
reaches the subnormal floor), the remainder decides the rounding (a tie goes
to the even neighbour), and the bits are assembled by hand. The result is
what a correctly rounded conversion gives.
-/

namespace Provisioning.Number

/-- Bits of positive infinity. -/
def infinityBits : UInt64 := 0x7FF0000000000000

/-- The quotient of `num / den` scaled by `2 ^ (-e)`, with its remainder and divisor. -/
def scaledQuotient (num den : Nat) (e : Int) : Nat × Nat × Nat :=
  let n := if e < 0 then num * Nat.pow 2 e.natAbs else num
  let d := if e < 0 then den else den * Nat.pow 2 e.natAbs
  (n / d, n % d, d)

/-- The exponent at which the scaled quotient of `num / den` has exactly 53 bits, not going
below the subnormal floor of -1074. -/
def exponentFor (num den : Nat) : Int :=
  let guess : Int := (num.log2 : Int) - (den.log2 : Int) - 52
  let fit (e : Int) : Int :=
    if (scaledQuotient num den e).1 ≥ Nat.pow 2 53 then e + 1
    else if (scaledQuotient num den e).1 < Nat.pow 2 52 then e - 1 else e
  let e := fit (fit guess)
  if e < -1074 then -1074 else e

/-- Bits of the binary64 value nearest to `num / den`, ties to even; `den` must be positive. -/
def ratioBits (num den : Nat) : UInt64 :=
  if num = 0 then 0 else
  let e := exponentFor num den
  let (q, r, d) := scaledQuotient num den e
  let up := 2 * r > d || (2 * r = d && q % 2 = 1)
  let q := if up then q + 1 else q
  let (q, e) := if q = Nat.pow 2 53 then (Nat.pow 2 52, e + 1) else (q, e)
  if q ≥ Nat.pow 2 52 then
    let biased := e + 1075
    if biased ≥ 2047 then infinityBits
    else UInt64.ofNat (biased.toNat * Nat.pow 2 52 + (q - Nat.pow 2 52))
  else UInt64.ofNat q

/-- The binary64 value nearest to `num / den`, ties to even. -/
def ofRatio (num den : Nat) : Float :=
  Float.ofBits (ratioBits num den)

/-- The binary64 value nearest to `digits * 10 ^ exponent`. Far outside the range of binary64
the value is infinity or zero, found without computing the power: a value of at least
`10 ^ 309` is beyond the largest finite number, and one below `10 ^ (-330)` rounds to zero. -/
def ofDecimal (digits : Nat) (exponent : Int) : Float :=
  if digits = 0 then 0 else
  let size : Int := (toString digits).length
  if exponent + size > 310 then Float.ofBits infinityBits
  else if exponent + size < -330 then 0
  else if exponent ≥ 0 then ofRatio (digits * Nat.pow 10 exponent.toNat) 1
  else ofRatio digits (Nat.pow 10 exponent.natAbs)

/-- The binary64 value nearest to `10 ^ k`. -/
def pow10 (k : Nat) : Float :=
  ofRatio (Nat.pow 10 k) 1

/-- A float read back as sign, significand and binary exponent: the value is
`(-1)^sign * significand * 2 ^ exponent`. Infinities and NaN give `none`. -/
def decompose (f : Float) : Option (Bool × Nat × Int) :=
  let bits := f.toBits.toNat
  let sign := bits ≥ Nat.pow 2 63
  let biased : Nat := bits / Nat.pow 2 52 % 2048
  let frac : Nat := bits % Nat.pow 2 52
  if biased = 2047 then none
  else if biased = 0 then some (sign, frac, -1074)
  else some (sign, frac + Nat.pow 2 52, (biased : Int) - 1075)

theorem ratioBits_zero (den : Nat) : ratioBits 0 den = 0 := by
  simp [ratioBits]

end Provisioning.Number
