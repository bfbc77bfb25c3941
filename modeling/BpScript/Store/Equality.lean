import BpScript.Store.Render

/-!
# Equality of values

Lists are equal if their elements are, in order; objects if they give the same names equal values,
in any order.  A list or object is equal to itself without a look at its contents.  Functions are
compared by name.

* `Store.equal` — equality of values that do not contain themselves.
-/

namespace BpScript

namespace Store

/-- Compares values that nest at most `bound` deep. -/
def equalWithin (s : Store) : (bound : Nat) → Value → Value → Bool
  | 0, _, _ => false
  | bound + 1, v, w =>
    match v, w with
    | .number x, .number y => x == y
    | .text t, .text u => t = u
    | .boolean a, .boolean b => a = b
    | .null, .null => true
    | .list i, .list j =>
      let xs := (s.items i).toList
      let ys := (s.items j).toList
      i = j || (xs.length = ys.length &&
        (xs.zip ys).all fun pair => equalWithin s bound pair.1 pair.2)
    | .object i, .object j =>
      let xs := s.entries i
      let ys := s.entries j
      i = j || (xs.length = ys.length && xs.all fun entry =>
        match ys.get? entry.1 with
        | some w => equalWithin s bound w entry.2
        | none => false)
    | .callable f, .callable g => f.same g
    | _, _ => false

/-- Whether two values are equal. -/
def equal (s : Store) (v w : Value) : Bool :=
  s.equalWithin s.nestingBound v w

end Store

end BpScript
