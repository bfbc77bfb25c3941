/-!
# Decimal numbers

A decimal number is a natural number times a power of ten.  Scripts write numbers in this form, and
numbers are shown in it.

* `Decimal.normalize` — the same number without zeros at the end of its digits.
* `Decimal.positional` — the number written out in full, without an exponent.
-/

namespace BpScript

/-- The bits of a double count its fraction in units of `1 / fractionUnit`, which is `2 ^ 52`. -/
def fractionUnit : Nat := 0x10000000000000

/-- The number `coefficient · 10 ^ exponent`. -/
structure Decimal where
  coefficient : Nat
  exponent : Int
  deriving DecidableEq, Repr, Inhabited

namespace Decimal

/-- The number as a fraction of natural numbers. -/
def ratio (d : Decimal) : Nat × Nat :=
  if 0 ≤ d.exponent then (d.coefficient * Nat.pow 10 d.exponent.toNat, 1)
  else (d.coefficient, Nat.pow 10 (-d.exponent).toNat)

/-- Moves up to `n` zeros from the end of the digits into the exponent. -/
def dropZeros : Nat → Decimal → Decimal
  | 0, d => d
  | n + 1, d =>
    if d.coefficient ≠ 0 ∧ d.coefficient % 10 = 0 then
      dropZeros n ⟨d.coefficient / 10, d.exponent + 1⟩
    else d

/-- The digits of a natural number, most significant first. -/
def digits (n : Nat) : List Char :=
  Nat.toDigits 10 n

/-- The same number with no zero at the end of its digits. -/
def normalize (d : Decimal) : Decimal :=
  dropZeros (digits d.coefficient).length d

/-- The number written out in full: never an exponent, and a point only before decimal places. -/
def positional (d : Decimal) : String :=
  let written := digits d.coefficient
  if 0 ≤ d.exponent then
    String.ofList (written ++ List.replicate d.exponent.toNat '0')
  else
    let places := (-d.exponent).toNat
    let padded := List.replicate (places + 1 - written.length) '0' ++ written
    let whole := padded.take (padded.length - places)
    let fraction := padded.drop (padded.length - places)
    String.ofList (whole ++ '.' :: fraction)

end Decimal

end BpScript
