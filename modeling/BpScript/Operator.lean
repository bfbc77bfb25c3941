import BpScript.Machine

/-!
# Operators

What operators do with the values of their operands.  They never change a list or object: a list
they give is a new one.

* `Operator.binary`, `Operator.unary` — all operators.
* `Operator.add`, … — one by one.
* `listIndex?` — the element an index means, where negative ones count from the end.
-/

namespace BpScript

/-- The element of a list of `len` elements that a number means.  Negative numbers count from the
end; fractions and numbers out of range mean none. -/
def listIndex? (index : Float) (len : Nat) : Option Nat :=
  if !index.isFinite || index.floor != index then none
  else
    let resolved := if index < 0 then Float.ofNat len + index else index
    if 0 ≤ resolved && resolved < Float.ofNat len then some resolved.toUInt64.toNat else none

namespace Operator

/-- The failure of an operator on an operand. -/
def illegal {α : Type} (operand : Value) : Action α :=
  throw (.illegalOperation operand.kind)

/-- The longest text, in bytes, that repetition makes. -/
def maxRepeatLength : Nat := 0x40000000

/-- A text repeated a whole number of times, unless the result is too long. -/
def repeatText (s : String) (times : Float) : Option String :=
  if !times.isFinite || times < 0 || times.floor != times || 18446744073709551616.0 < times then
    none
  else if s.isEmpty then some ""
  else
    let count := times.toUInt64.toNat
    if s.utf8ByteSize * count ≤ maxRepeatLength then some (count.repeat (· ++ s) "") else none

/-- Adds numbers, where null counts as zero; joins texts with anything; appends to lists. -/
def add (lhs rhs : Value) : Action Value := do
  match lhs, rhs with
  | .number m, .number n => return .number (m + n)
  | .number n, .null | .null, .number n => return .number n
  | .text s, _ => return .text (s ++ (← Action.render rhs))
  | .number _, .text s | .boolean _, .text s | .null, .text s =>
    return .text ((← Action.render lhs) ++ s)
  | .list l, _ => Action.newList ((← Action.items l).push rhs)
  | _, _ => illegal rhs

/-- Subtracts numbers, where null counts as zero; removes from a list by index. -/
def subtract (lhs rhs : Value) : Action Value := do
  match lhs, rhs with
  | .number m, .number n => return .number (m - n)
  | .number n, .null => return .number n
  | .null, .number n => return .number (-n)
  | .list l, .number n =>
    let items ← Action.items l
    match listIndex? n items.size with
    | some i => Action.newList (items.eraseIdxIfInBounds i)
    | none => throw (.outOfBounds n .remove)
  | _, _ => illegal rhs

/-- Multiplies numbers, where null counts as zero; repeats texts; joins lists. -/
def multiply (lhs rhs : Value) : Action Value := do
  match lhs, rhs with
  | .number m, .number n => return .number (m * n)
  | .number _, .null | .null, .number _ => return .number 0
  | .text s, .number n =>
    match repeatText s n with
    | some t => return .text t
    | none => illegal rhs
  | .list l, .list r => Action.newList ((← Action.items l) ++ (← Action.items r))
  | _, _ => illegal rhs

/-- Divides numbers, where only the dividend may be null; takes from a list by index. -/
def divide (lhs rhs : Value) : Action Value := do
  match lhs, rhs with
  | .number m, .number n =>
    if n == 0 then throw .divisionByZero else return .number (m / n)
  | .null, .number n =>
    if n == 0 then throw .divisionByZero else return .number (0 / n)
  | .number _, .null | .null, .null => throw .divisionByNull
  | .list l, .number n =>
    let items ← Action.items l
    match (listIndex? n items.size).bind (items[·]?) with
    | some v => return v
    | none => throw (.outOfBounds n .retrieve)
  | _, _ => illegal rhs

/-- Raises numbers to powers, where null counts as zero. -/
def power (lhs rhs : Value) : Action Value := do
  match lhs, rhs with
  | .number m, .number n => return .number (Float.pow m n)
  | .number _, .null => return .number 1
  | .null, .number n => return .number (Float.pow 0 n)
  | _, _ => illegal rhs

/-- Compares numbers.  If one of two operands is no number, the left one is blamed first. -/
def compare (holds : Float → Float → Bool) (lhs rhs : Value) : Action Value := do
  match lhs, rhs with
  | .number m, .number n => return .boolean (holds m n)
  | .number _, _ => illegal rhs
  | _, _ => illegal lhs

/-- A binary operator on the values of both operands. -/
def binary (op : BinaryOp) (lhs rhs : Value) : Action Value := do
  match op with
  | .add => add lhs rhs
  | .subtract => subtract lhs rhs
  | .multiply => multiply lhs rhs
  | .divide => divide lhs rhs
  | .power => power lhs rhs
  | .equal => return .boolean (← Action.equal lhs rhs)
  | .notEqual => return .boolean (!(← Action.equal lhs rhs))
  | .less => compare (· < ·) lhs rhs
  | .greater => compare (· > ·) lhs rhs
  | .lessEqual => compare (· ≤ ·) lhs rhs
  | .greaterEqual => compare (· ≥ ·) lhs rhs
  | .and => return .boolean (lhs.isTruthy && rhs.isTruthy)
  | .or => return .boolean (lhs.isTruthy || rhs.isTruthy)

/-- A unary operator on the value of its operand. -/
def unary (op : UnaryOp) (operand : Value) : Action Value := do
  match op, operand with
  | .not, v => return .boolean (!v.isTruthy)
  | .minus, .number n => return .number (-n)
  | .plus, .number n => return .number n
  | .minus, .null | .plus, .null => return .number 0
  | _, v => illegal v

/-- What an assignment stores, from the old value and the one on its right. -/
def assign (op : AssignOp) (old value : Value) : Action Value :=
  match op with
  | .set => return value
  | .add => add old value
  | .subtract => subtract old value

end Operator

end BpScript
