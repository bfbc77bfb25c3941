import BpScript.Store.Heap
import BpScript.Table
import BpScript.Value

/-!
# The store

The contents of all lists, objects and scopes of a run.  Values refer to them by handles; handles
that were never given out read as empty.

* `newList`, `items`, `modifyItems` — lists.
* `newObject`, `entries`, `modifyEntries` — objects.
* `newScope`, `lookup`, `bind`, `unbind` — scopes.  A name is looked up from the inside out, and
  bound in one scope only.
* `newRoot` — a scope without a parent that has the built-in functions.
* `publicSymbols` — what a scope exports.
-/

namespace BpScript

/-- What a name stands for, and whether a module exports it. -/
structure Binding where
  value : Value
  isPublic : Bool

/-- The names of one scope, and the scope around it. -/
structure Scope where
  bindings : Table String Binding
  parent : Option ScopeId

/-- The contents of all handles. -/
structure Store where
  lists : Heap (Array Value)
  objects : Heap (Table String Value)
  scopes : Heap Scope

namespace Store

/-- The store before anything was made. -/
def empty : Store := ⟨.empty, .empty, .empty⟩

instance : Inhabited Store := ⟨empty⟩

/-! ## Lists -/

/-- Makes a list. -/
def newList (s : Store) (items : Array Value) : ListId × Store :=
  let (i, lists) := s.lists.alloc items
  (⟨i⟩, { s with lists })

/-- The elements of a list. -/
def items (s : Store) (id : ListId) : Array Value :=
  (s.lists.get? id.index).getD #[]

/-- Changes the elements of a list. -/
def modifyItems (s : Store) (id : ListId) (f : Array Value → Array Value) : Store :=
  { s with lists := s.lists.modify id.index f }

/-! ## Objects -/

/-- Makes an object. -/
def newObject (s : Store) (entries : Table String Value) : ObjectId × Store :=
  let (i, objects) := s.objects.alloc entries
  (⟨i⟩, { s with objects })

/-- The entries of an object. -/
def entries (s : Store) (id : ObjectId) : Table String Value :=
  (s.objects.get? id.index).getD []

/-- Changes the entries of an object. -/
def modifyEntries (s : Store) (id : ObjectId) (f : Table String Value → Table String Value) :
    Store :=
  { s with objects := s.objects.modify id.index f }

/-! ## Scopes -/

/-- Makes a scope. -/
def newScope (s : Store) (scope : Scope) : ScopeId × Store :=
  let (i, scopes) := s.scopes.alloc scope
  (⟨i⟩, { s with scopes })

/-- The names bound in a scope itself. -/
def bindings (s : Store) (id : ScopeId) : Table String Binding :=
  match s.scopes.get? id.index with
  | some scope => scope.bindings
  | none => []

/-- The scope around a scope. -/
def parent? (s : Store) (id : ScopeId) : Option ScopeId :=
  (s.scopes.get? id.index).bind (·.parent)

theorem bindings_eq_of_get?_eq {s s' : Store} {id : ScopeId}
    (h : s'.scopes.get? id.index = s.scopes.get? id.index) : s'.bindings id = s.bindings id := by
  rw [bindings, bindings, h]

theorem parent?_eq_of_get?_eq {s s' : Store} {id : ScopeId}
    (h : s'.scopes.get? id.index = s.scopes.get? id.index) : s'.parent? id = s.parent? id := by
  rw [parent?, parent?, h]

/-- Binds a name in a scope, in place of what it stood for there. -/
def bind (s : Store) (id : ScopeId) (name : String) (binding : Binding) : Store :=
  { s with scopes := s.scopes.modify id.index fun scope =>
      { scope with bindings := scope.bindings.set name binding } }

/-- Removes a name from a scope. -/
def unbind (s : Store) (id : ScopeId) (name : String) : Store :=
  { s with scopes := s.scopes.modify id.index fun scope =>
      { scope with bindings := scope.bindings.erase name } }

/-- The innermost binding of a name, in at most `bound` scopes from `id` outwards. -/
def lookupWithin (s : Store) (name : String) : (bound : Nat) → ScopeId → Option Binding
  | 0, _ => none
  | bound + 1, id =>
    match s.scopes.get? id.index with
    | none => none
    | some scope =>
      match scope.bindings.get? name with
      | some binding => some binding
      | none => scope.parent.bind (lookupWithin s name bound)

/-- The innermost binding of a name, from a scope outwards.  A scope is made after the one around
it, so its index bounds the number of scopes to look at. -/
def lookup (s : Store) (id : ScopeId) (name : String) : Option Binding :=
  s.lookupWithin name (id.index + 1) id

/-- Whether a binding is exported.  A function has the visibility it was declared with, whatever
name holds it. -/
def Binding.isExported (binding : Binding) : Bool :=
  match binding.value with
  | .callable (.closure c) => c.definition.isPublic
  | _ => binding.isPublic

/-- The exported names of a scope with their values, sorted by name. -/
def publicSymbols (s : Store) (id : ScopeId) : List (String × Value) :=
  (((s.bindings id).filter fun entry => Binding.isExported entry.2).map
    fun entry => (entry.1, entry.2.value)).mergeSort fun a b => decide (a.1 ≤ b.1)

/-! ## Root scopes -/

/-- The constants of the object `math`. -/
def mathConstants : Table String Value :=
  [("pi", .number 3.141592653589793), ("e", .number 2.718281828459045),
   ("inf", .number (1.0 / 0.0))]

/-- The names of a fresh root scope: the built-in functions and `math`, none of them exported. -/
def rootBindings (math : ObjectId) : Table String Binding :=
  (Global.all.map fun g => (g.name, ⟨.callable (.native (.global g)), false⟩)) ++
    [("math", ⟨.object math, false⟩)]

/-- Makes a root scope with the built-in functions. -/
def newRoot (s : Store) : ScopeId × Store :=
  let (math, s) := s.newObject mathConstants
  s.newScope ⟨rootBindings math, none⟩

/-- The names every root scope starts with, in order. -/
def rootNames : List String :=
  (rootBindings default).keys

end Store

end BpScript
