import BpScript.Eval

/-!
# Loops

All loops are one: before each iteration a step decides whether there is another one and binds the
loop's variables, and then the body runs.  The loops differ in this step and in what it carries on.

* `Loop.run` — iterations until there is none left or the body breaks.
* `Loop.countStep`, `Loop.listStep`, `Loop.objectStep`, `Loop.whileStep` — the four loops.
* `Loop.value` — the value of a loop: null for a block or after a `break`, else the list of the
  values of the iterations that were not skipped.
-/

namespace BpScript

namespace Loop

/-- Runs iterations.  `done` holds the values of those before; after a `break` there is no
result. -/
def run {σ : Type} (step : σ → Eval (Option σ)) (body : Eval Value) :
    (bound : Nat) → σ → (done : Array Value) → Eval (Option (Array Value))
  | 0, _, _ => throw .exhausted
  | bound + 1, state, done => do
    match ← step state with
    | none => return some done
    | some next =>
      match ← Eval.iteration body with
      | .value v => run step body bound next (done.push v)
      | .skipped => run step body bound next done
      | .stopped => return none

/-- The value of a loop. -/
def value (isBlock : Bool) : Option (Array Value) → Eval Value
  | none => return .null
  | some values => if isBlock then return .null else Eval.newList values

/-- Counts from a number on.  The variable is bound before the test, so it ends up as the first
number that fails it; the count goes on from the number and not from the variable. -/
def countStep (scope : ScopeId) (name : String) (last step : Float) (i : Float) :
    Eval (Option Float) := do
  Eval.bind scope name (.number i) false
  let goesOn : Bool := if 0 ≤ step then i < last else last < i
  return if goesOn then some (i + step) else none

/-- Goes through a list as it is at each iteration, by index. -/
def listStep (scope : ScopeId) (name : String) (list : ListId) (i : Nat) : Eval (Option Nat) := do
  match ((← get).store.items list)[i]? with
  | some item =>
    Eval.bind scope name item false
    return some (i + 1)
  | none => return none

/-- Goes through entries that were taken from an object before the loop. -/
def objectStep (scope : ScopeId) (key value : String) :
    Table String Value → Eval (Option (Table String Value))
  | [] => return none
  | (k, v) :: rest => do
    Eval.bind scope key (.text k) false
    Eval.bind scope value v false
    return some rest

/-- Goes on as long as a condition holds. -/
def whileStep (condition : Eval Value) (_ : Unit) : Eval (Option Unit) := do
  return if (← condition).isTruthy then some () else none

end Loop

end BpScript
