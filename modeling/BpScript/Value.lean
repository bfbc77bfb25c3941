import BpScript.Builtin
import BpScript.Number
import BpScript.Tree

/-!
# Values

What expressions evaluate to.  Lists, objects and scopes are shared and can change, so values hold
handles to them; the store holds their contents.

* `Value`, `Callable`, `Native` — the values.  A method carries the receiver it was looked up on.
* `Value.kind` — what messages call the type of a value.
* `Value.isTruthy` — what conditions take for true.
* `Callable.name`, `Callable.params` — how a function is called.
-/

namespace BpScript

/-- A handle to a list. -/
@[ext] structure ListId where
  index : Nat
  deriving DecidableEq, Repr, Inhabited

/-- A handle to an object. -/
@[ext] structure ObjectId where
  index : Nat
  deriving DecidableEq, Repr, Inhabited

/-- A handle to a scope. -/
@[ext] structure ScopeId where
  index : Nat
  deriving DecidableEq, Repr, Inhabited

/-- A function of a script with the scope it was made in. -/
structure Closure where
  definition : Function
  scope : ScopeId

mutual

/-- What can be called. -/
inductive Callable where
  | closure (closure : Closure)
  | native (native : Native)

/-- A built-in function.  Methods know the value they belong to.  They are looked up on values of
their own type only, and here each is paired with a receiver of this type, so a call has no receiver
of another type to refuse. -/
inductive Native where
  | global (function : Global)
  | text (method : TextMethod) (receiver : String)
  | list (method : ListMethod) (receiver : ListId)
  | object (method : ObjectMethod) (receiver : ObjectId)
  | function (method : FunctionMethod) (receiver : Callable)

end

/-- The values of scripts. -/
inductive Value where
  | number (value : Float)
  | text (value : String)
  | boolean (value : Bool)
  | null
  | list (id : ListId)
  | object (id : ObjectId)
  | callable (callable : Callable)

instance : Inhabited Value := ⟨.null⟩

/-- The types of values. -/
inductive ValueKind where
  | number
  | text
  | boolean
  | null
  | list
  | object
  | closure
  | native
  deriving DecidableEq, Repr, Inhabited

/-- What messages call a type. -/
def ValueKind.name : ValueKind → String
  | number => "Number"
  | text => "String"
  | boolean => "Boolean"
  | null => "Null"
  | list => "List"
  | object => "Object"
  | closure => "Function"
  | native => "BuiltInFunction"

namespace Native

/-- The name a built-in function goes by. -/
def name : Native → String
  | global f => f.name
  | text m _ => m.name
  | list m _ => m.name
  | object m _ => m.name
  | function m _ => m.label

/-- The parameters of a built-in function. -/
def params : Native → List BuiltinParam
  | global f => f.params
  | text m _ => m.params
  | list m _ => m.params
  | object m _ => m.params
  | function _ _ => []

end Native

namespace Callable

/-- The name a function goes by. -/
def name : Callable → String
  | closure c => c.definition.name
  | native n => n.name

/-- For each parameter, whether a call may leave it out. -/
def optionals : Callable → List Bool
  | closure c => c.definition.params.map (·.optional)
  | native n => n.params.map (·.optional)

/-- The number of parameters. -/
def arity (f : Callable) : Nat :=
  f.optionals.length

/-- How a function is shown. -/
def render : Callable → String
  | closure c => s!"<function {c.definition.name}>"
  | native n => s!"<built-in function {n.name}>"

/-- Functions are compared by name only, and never equal to built-in ones. -/
def same : Callable → Callable → Bool
  | closure c, closure d => c.definition.name = d.definition.name
  | native m, native n => m.name = n.name
  | _, _ => false

end Callable

namespace Value

/-- The type of a value. -/
def kind : Value → ValueKind
  | number _ => .number
  | text _ => .text
  | boolean _ => .boolean
  | null => .null
  | list _ => .list
  | object _ => .object
  | callable (.closure _) => .closure
  | callable (.native _) => .native

/-- Null, false and the empty text are not true; everything else is, zero included. -/
def isTruthy : Value → Bool
  | null => false
  | boolean b => b
  | text s => !s.isEmpty
  | _ => true

/-- The number that a count makes. -/
def ofNat (n : Nat) : Value :=
  number (Float.ofNat n)

/-- The methods of a value, in the order they are listed. -/
def methods : Value → List Native
  | text s => TextMethod.all.map (.text · s)
  | list l => ListMethod.all.map (.list · l)
  | object o => ObjectMethod.all.map (.object · o)
  | callable f => FunctionMethod.all.map (.function · f)
  | _ => []

end Value

end BpScript
