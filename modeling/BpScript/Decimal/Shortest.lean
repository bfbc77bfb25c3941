import BpScript.Decimal

/-!
# The shortest decimal that reads back

A finite positive double stands for every real number that rounds to it, an interval around its
exact value.  It is shown with the fewest digits that any number in that interval has, and among
those with the number nearest to its exact value.  All of it is exact arithmetic on natural numbers.

* `Double` — a mantissa and a power of two.
* `Double.shortest` — the fewest digits that read back.
-/

namespace BpScript

/-- The number `mantissa · 2 ^ exponent`.  `isLowest` says that the doubles below it are twice as
dense as those above it, which holds at powers of two. -/
structure Double where
  mantissa : Nat
  exponent : Int
  isLowest : Bool
  deriving DecidableEq, Repr, Inhabited

namespace Double

/-- The exact value of a finite double, without its sign. -/
def ofFloat (x : Float) : Double :=
  let bits : Nat := x.toBits.toNat
  let fraction : Nat := bits % fractionUnit
  let power : Nat := bits / fractionUnit % 2048
  if power = 0 then ⟨fraction, -1074, false⟩
  else ⟨fraction + fractionUnit, (power : Int) - 1075, fraction = 0 ∧ 1 < power⟩

/-- The interval around a double, measured against the decimal grid of step `10 ^ place`.
Everything is scaled to whole numbers: the grid step, the value, and its distances to the ends. -/
structure Ruler where
  step : Nat
  value : Nat
  below : Nat
  above : Nat
  closed : Bool

/-- Lays the grid of step `10 ^ place` on the double.  The ends of the interval are half a gap away,
and belong to it if the mantissa is even. -/
def ruler (d : Double) (place : Int) : Ruler :=
  let twos : Int := d.exponent - 2
  let binary : Nat := Nat.pow 2 twos.toNat * Nat.pow 10 (-place).toNat
  { step := Nat.pow 10 place.toNat * Nat.pow 2 (-twos).toNat
    value := 4 * d.mantissa * binary
    below := (if d.isLowest then 1 else 2) * binary
    above := 2 * binary
    closed := d.mantissa % 2 = 0 }

namespace Ruler

/-- Whether the grid point `n` lies in the interval, for a point at or below the value. -/
def reachesDown (r : Ruler) (n : Nat) : Bool :=
  if r.closed then r.value - n * r.step ≤ r.below else r.value - n * r.step < r.below

/-- Whether the grid point `n` lies in the interval, for a point above the value. -/
def reachesUp (r : Ruler) (n : Nat) : Bool :=
  if r.closed then n * r.step - r.value ≤ r.above else n * r.step - r.value < r.above

/-- The grid point of the interval that is nearest to the value, if there is one.  Of two points
equally near, the larger. -/
def nearest? (r : Ruler) : Option Nat :=
  let low := r.value / r.step
  let high := low + 1
  match r.reachesDown low, r.reachesUp high with
  | true, true =>
    if r.value - low * r.step < high * r.step - r.value then some low else some high
  | true, false => some low
  | false, true => some high
  | false, false => none

end Ruler

/-- Whether the double is less than `10 ^ place`. -/
def isBelow (d : Double) (place : Int) : Bool :=
  let r := d.ruler place
  r.value < r.step

/-- The place of the first digit of a positive double: the largest power of ten that it reaches. -/
def leadingPlace (d : Double) : Int :=
  let guess : Int := ((d.mantissa.log2 : Int) + d.exponent) * 1233 / 4096
  if d.isBelow guess then guess - 1
  else if d.isBelow (guess + 1) then guess
  else guess + 1

/-- Tries one more digit, up to `tries` times. -/
def search (d : Double) : (tries : Nat) → (place : Int) → Decimal
  | 0, place => ⟨(d.ruler place).value / (d.ruler place).step, place⟩
  | tries + 1, place =>
    match (d.ruler place).nearest? with
    | some n => ⟨n, place⟩
    | none => search d tries (place - 1)

/-- The decimal number with the fewest digits that reads back as the double, and the nearest of
those.  Seventeen digits always suffice. -/
def shortest (d : Double) : Decimal :=
  if d.mantissa = 0 then ⟨0, 0⟩
  else (search d 17 d.leadingPlace).normalize

end Double

end BpScript
