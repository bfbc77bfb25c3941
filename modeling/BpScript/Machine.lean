import BpScript.Console
import BpScript.Fault
import BpScript.Store.Equality
import BpScript.Workspace

/-!
# The state of a run

Everything evaluation reads and changes: the store, the console, the workspace, and where in the
script it is.  `Action` is the type of steps that use this state and may raise a fault; a fault
keeps the state as it is when it is raised.

* `Machine.start` — the state before the first script.
* `Action.newList`, `Action.render`, … — the elementary steps.
-/

namespace BpScript

/-- The state of a run. -/
structure Machine where
  store : Store
  console : Console
  workspace : Workspace
  /-- The names of the calls and modules in progress, outermost first. -/
  contexts : Array String
  /-- The number of loops around this point, within the current call. -/
  loopDepth : Nat
  /-- The paths of the modules whose import is in progress, innermost first. -/
  importing : List String
  deriving Inhabited

/-- The context of what is outside all calls and modules. -/
def programContext : String := "<program>"

/-- The state before the first script. -/
def Machine.start (console : Console) (workspace : Workspace) : Machine :=
  { store := .empty, console, workspace, contexts := #[programContext], loopDepth := 0,
    importing := [] }

/-- A step that uses the state and may raise a fault. -/
abbrev Action (α : Type) := ExceptT Fault (StateM Machine) α

namespace Action

/-- Makes a list. -/
def newList (items : Array Value) : Action Value :=
  modifyGet fun m =>
    let (id, store) := m.store.newList items
    (.list id, { m with store })

/-- The elements of a list. -/
def items (id : ListId) : Action (Array Value) :=
  return (← get).store.items id

/-- Changes the elements of a list. -/
def modifyItems (id : ListId) (f : Array Value → Array Value) : Action Unit :=
  modify fun m => { m with store := m.store.modifyItems id f }

/-- The entries of an object. -/
def entries (id : ObjectId) : Action (Table String Value) :=
  return (← get).store.entries id

/-- Changes the entries of an object. -/
def modifyEntries (id : ObjectId) (f : Table String Value → Table String Value) : Action Unit :=
  modify fun m => { m with store := m.store.modifyEntries id f }

/-- The store as it is. -/
def store : Action Store :=
  return (← get).store

/-- How a value is shown. -/
def render (v : Value) : Action String :=
  return (← get).store.render v

/-- Whether two values are equal. -/
def equal (v w : Value) : Action Bool :=
  return (← get).store.equal v w

end Action

end BpScript
