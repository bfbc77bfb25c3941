import BpScript.Decimal

/-!
# The double nearest to a decimal number

A double holds `m · 2 ^ q` with `m < 2 ^ 53` and `-1074 ≤ q`.  A decimal number is read as the
double nearest to it, and as the one with even `m` if two are equally near; past the largest double
it is read as infinity.  All of it is exact arithmetic on natural numbers.

* `roundDiv` — a quotient rounded to the nearest natural number, ties to even.
* `nearestBits` — the bits of the double nearest to a fraction.
* `Decimal.toFloat` — the double nearest to a decimal number.
-/

namespace BpScript

namespace Decimal

/-- `num / den` rounded to the nearest natural number; a tie goes to the even one. -/
def roundDiv (num den : Nat) : Nat :=
  let quotient := num / den
  let twice := 2 * (num % den)
  if twice < den then quotient
  else if den < twice then quotient + 1
  else if quotient % 2 = 0 then quotient
  else quotient + 1

/-- The largest power of two that is at most `num / den`, for positive `num` and `den`. -/
def floorLog2 (num den : Nat) : Int :=
  let guess : Int := (num.log2 : Int) - (den.log2 : Int)
  let below : Bool :=
    if 0 ≤ guess then num < den * Nat.pow 2 guess.toNat
    else num * Nat.pow 2 (-guess).toNat < den
  if below then guess - 1 else guess

/-- The bits of positive infinity. -/
def infinityBits : Nat := 0x7FF0000000000000

/-- The smallest exponent of a double. -/
def leastExponent : Int := -1074

/-- The bits of the double nearest to `num / den`.  Bits of positive doubles count the doubles in
order, so a mantissa that rounds up to the next power of two needs no care. -/
def nearestBits (num den : Nat) : Nat :=
  if num = 0 then 0
  else
    let q := max (floorLog2 num den - 52) leastExponent
    let m :=
      if 0 ≤ q then roundDiv num (den * Nat.pow 2 q.toNat)
      else roundDiv (num * Nat.pow 2 (-q).toNat) den
    min ((q - leastExponent).toNat * fractionUnit + m) infinityBits

/-- About the place of the first digit of a positive decimal number: the number lies between
`10 ^ (scale - 1)` and `10 ^ (scale + 2)`. -/
def scale (d : Decimal) : Int :=
  (d.coefficient.log2 * 30103 / 100000 : Nat) + d.exponent

/-- The double nearest to the decimal number.  Numbers far outside the range of doubles are answered
from their scale alone, so a large exponent costs nothing. -/
def toFloat (d : Decimal) : Float :=
  if d.coefficient = 0 ∨ d.scale < -330 then 0.0
  else if 330 < d.scale then Float.ofBits infinityBits.toUInt64
  else
    let (num, den) := d.ratio
    Float.ofBits (nearestBits num den).toUInt64

end Decimal

end BpScript
