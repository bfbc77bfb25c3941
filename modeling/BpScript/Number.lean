import BpScript.Decimal.Nearest
import BpScript.Decimal.Shortest

/-!
# Numbers as text

The numbers of scripts are doubles.  They are shown by the fewest digits that read back, written out
in full; zero keeps its sign and what is not a number has none.

* `Number.render` — the text of a number.
* `Number.parse?` — the number a text holds: an optional sign, digits with an optional point, and an
  optional exponent; or a word for infinity or for no number.
* `Number.parseInteger?` — the 64-bit integer a text holds.
-/

namespace BpScript

namespace Number

/-- The text of a number. -/
def render (x : Float) : String :=
  if x.isNaN then "NaN"
  else
    let sign := if x.toBits.toNat / 0x8000000000000000 = 1 then "-" else ""
    if x.isInf then sign ++ "inf"
    else sign ++ (Double.ofFloat x).shortest.positional

/-! ## Runs of digits -/

/-- The value of a digit. -/
def digitValue (c : Char) : Nat :=
  c.toNat - '0'.toNat

/-- The value of a run of digits, read digit by digit. -/
def ofDigits (cs : List Char) : Nat :=
  cs.foldl (fun n c => 10 * n + digitValue c) 0

/-- Digits that come after others push those up by as many places. -/
theorem foldl_digits (cs : List Char) (n : Nat) :
    cs.foldl (fun n c => 10 * n + digitValue c) n = n * Nat.pow 10 cs.length + ofDigits cs := by
  induction cs generalizing n with
  | nil => simp [ofDigits]
  | cons c cs ih =>
    rw [ofDigits, List.foldl_cons, List.foldl_cons, ih, ih (10 * 0 + digitValue c)]
    have step : Nat.pow 10 (c :: cs).length = 10 * Nat.pow 10 cs.length := Nat.mul_comm _ 10
    rw [step, Nat.add_mul, Nat.add_mul, Nat.add_assoc, Nat.mul_zero, Nat.zero_mul, Nat.zero_add,
      Nat.mul_left_comm, Nat.mul_assoc, Nat.mul_left_comm]

/-- The value of two runs, one after the other. -/
theorem ofDigits_append (high low : List Char) :
    ofDigits (high ++ low) = ofDigits high * Nat.pow 10 low.length + ofDigits low := by
  rw [ofDigits, List.foldl_append, foldl_digits, ← ofDigits]

/-- The value of a run of digits, put together from the values of its halves, `depth` times over.
A long run takes a few large products this way, and not one for each digit. -/
def ofHalves : (depth : Nat) → List Char → Nat
  | 0, cs => ofDigits cs
  | depth + 1, cs =>
    let high := cs.take (cs.length / 2)
    let low := cs.drop (cs.length / 2)
    ofHalves depth high * Nat.pow 10 low.length + ofHalves depth low

/-- Halving does not change the value. -/
@[simp] theorem ofHalves_eq_ofDigits (depth : Nat) (cs : List Char) :
    ofHalves depth cs = ofDigits cs := by
  induction depth generalizing cs with
  | zero => rfl
  | succ depth ih => rw [ofHalves, ih, ih, ← ofDigits_append, List.take_append_drop]

/-- The value of a run of digits of any length: runs are halved until a piece has about a hundred
digits. -/
def ofRun (cs : List Char) : Nat :=
  ofHalves (cs.length / 64).log2 cs

@[simp] theorem ofRun_eq_ofDigits (cs : List Char) : ofRun cs = ofDigits cs :=
  ofHalves_eq_ofDigits _ cs

/-! ## Numbers in texts -/

/-- Takes a sign off the front of a text; the flag says that it was a minus. -/
def splitSign : List Char → Bool × List Char
  | '-' :: cs => (true, cs)
  | '+' :: cs => (false, cs)
  | cs => (false, cs)

/-- Digits of an exponent count only as long as those before them stay below this. -/
def exponentLimit : Nat := 0x10000

/-- The value of the digits of an exponent. -/
def ofExponentDigits (cs : List Char) : Nat :=
  cs.foldl (fun n c => if n < exponentLimit then 10 * n + digitValue c else n) 0

/-- Reads an exponent: a sign and at least one digit, and nothing after them. -/
def parseExponent? (cs : List Char) : Option Int :=
  let (negative, ds) := splitSign cs
  if ds.isEmpty || !ds.all Char.isDigit then none
  else
    let n : Int := ofExponentDigits ds
    some (if negative then -n else n)

/-- Reads a decimal number without a sign.  There is a digit before or after the point. -/
def parseDecimal? (cs : List Char) : Option Decimal :=
  let whole := cs.takeWhile Char.isDigit
  let (fraction, rest) := match cs.dropWhile Char.isDigit with
    | '.' :: more => (more.takeWhile Char.isDigit, more.dropWhile Char.isDigit)
    | rest => ([], rest)
  if whole.isEmpty && fraction.isEmpty then none
  else
    let coefficient := ofRun (whole ++ fraction)
    match rest with
    | [] => some ⟨coefficient, -fraction.length⟩
    | c :: cs =>
      if c = 'e' ∨ c = 'E' then
        (parseExponent? cs).map fun exponent => ⟨coefficient, exponent - fraction.length⟩
      else none

/-- The word that `cs` spells when case is ignored. -/
def lowered (cs : List Char) : String :=
  String.ofList (cs.map Char.toLower)

/-- Reads a number without a sign. -/
def parseUnsigned? (cs : List Char) : Option Float :=
  let word := lowered cs
  if word = "inf" ∨ word = "infinity" then some (1.0 / 0.0)
  else if word = "nan" then some (0.0 / 0.0)
  else (parseDecimal? cs).map Decimal.toFloat

/-- The number that a text holds and nothing else.  Blanks around it are not part of it. -/
def parse? (text : String) : Option Float :=
  let (negative, cs) := splitSign text.toList
  (parseUnsigned? cs).map fun x => if negative then -x else x

/-- The 64-bit integer that a text holds and nothing else. -/
def parseInteger? (text : String) : Option Int :=
  let (negative, cs) := splitSign text.toList
  if cs.isEmpty || !cs.all Char.isDigit then none
  else
    let n : Int := ofRun cs
    let value := if negative then -n else n
    if -0x8000000000000000 ≤ value ∧ value < 0x8000000000000000 then some value else none

end Number

end BpScript
