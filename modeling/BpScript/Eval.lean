import BpScript.Builtin.Call

/-!
# Steps of evaluation

Evaluating a node ends with a value, or with a signal: an error, or a `return`, `break` or
`continue` on its way to whatever takes it.  Whatever the outcome, the state is kept.

* `Signal`, `Eval` — the outcomes and the steps.
* `Eval.observe` — a step whose signals are looked at instead of passed on.
* `Eval.inContext` — a step inside a call or module.
* `Eval.iteration` — the body of a loop, once.
-/

namespace BpScript

/-- What ends an evaluation other than a value. -/
inductive Signal where
  | error (error : Diagnostic)
  | returned (value : Value)
  | broke
  | continued
  /-- The bound on nesting and repetition was too low. -/
  | exhausted
  /-- A `break` or `continue` left a whole program.  No run gets here. -/
  | unreachable

/-- A step of evaluation. -/
abbrev Eval (α : Type) := ExceptT Signal (StateM Machine) α

/-- How nodes are evaluated in a scope. -/
abbrev Visit := ScopeId → Node → Eval Value

/-- How one iteration of a loop ended. -/
inductive Iteration where
  | value (value : Value)
  | skipped
  | stopped

namespace Eval

variable {α : Type}

/-- Fails with a fault at a place of the source. -/
def raise (fault : Fault) (span : Span) : Eval α :=
  throw (.error (fault.locate span))

/-- An action whose faults are pinned to a place of the source. -/
def located (span : Span) (action : Action α) : Eval α :=
  ExceptT.adapt (fun fault => .error (fault.locate span)) action

/-- What is present, or a fault. -/
def orRaise (value : Option α) (fault : Fault) (span : Span) : Eval α :=
  match value with
  | some a => return a
  | none => raise fault span

/-- A step with its outcome, whatever that is. -/
def observe (step : Eval α) : Eval (Except Signal α) :=
  ExceptT.lift step.run

/-- Ends as an observed step ended. -/
def conclude (outcome : Except Signal α) : Eval α :=
  match outcome with
  | .ok a => return a
  | .error signal => throw signal

/-! ## The store -/

/-- Makes a list. -/
def newList (items : Array Value) : Eval Value :=
  modifyGet fun m =>
    let (id, store) := m.store.newList items
    (.list id, { m with store })

/-- Makes an object. -/
def newObject (entries : Table String Value) : Eval Value :=
  modifyGet fun m =>
    let (id, store) := m.store.newObject entries
    (.object id, { m with store })

/-- Makes a scope. -/
def newScope (scope : Scope) : Eval ScopeId :=
  modifyGet fun m =>
    let (id, store) := m.store.newScope scope
    (id, { m with store })

/-- Makes a root scope. -/
def newRoot : Eval ScopeId :=
  modifyGet fun m =>
    let (id, store) := m.store.newRoot
    (id, { m with store })

/-- The innermost binding of a name. -/
def lookup (scope : ScopeId) (name : Ident) : Eval Binding := do
  orRaise ((← get).store.lookup scope name.name) (.undefined name.name) name.span

/-- Binds a name in a scope. -/
def bind (scope : ScopeId) (name : String) (value : Value) (isPublic : Bool) : Eval Unit :=
  modify fun m => { m with store := m.store.bind scope name ⟨value, isPublic⟩ }

/-! ## Calls, modules and loops -/

/-- A step inside a call or module of this name.  Loops outside of it do not reach into it. -/
def inContext (name : String) (step : Eval α) : Eval (Except Signal α) := do
  let loopDepth := (← get).loopDepth
  modify fun m => { m with contexts := m.contexts.push name, loopDepth := 0 }
  let outcome ← observe step
  modify fun m => { m with contexts := m.contexts.pop, loopDepth }
  return outcome

/-- A step during the import of the module at a path. -/
def whileImporting (path : String) (step : Eval α) : Eval α := do
  modify fun m => { m with importing := path :: m.importing }
  let outcome ← observe step
  modify fun m => { m with importing := m.importing.tail }
  conclude outcome

/-- The body of a loop, once. -/
def iteration (body : Eval Value) : Eval Iteration := do
  modify fun m => { m with loopDepth := m.loopDepth + 1 }
  let outcome ← observe body
  modify fun m => { m with loopDepth := m.loopDepth - 1 }
  match outcome with
  | .ok value => return .value value
  | .error .continued => return .skipped
  | .error .broke => return .stopped
  | .error signal => throw signal

end Eval

end BpScript
