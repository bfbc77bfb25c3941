import BpScript.Operator
import BpScript.Text.Blank
import BpScript.Text.Case
import BpScript.Text.Search

/-!
# What built-in functions do

Every built-in function is an `Action` on the values of its arguments.  Arguments are checked before
anything is changed.

* `Global.call`, `TextMethod.call`, … — one function per family.
* `Native.call` — all of them.
* `Value.member` — what `value.name` is: a method first, then an entry of an object.
* `bindArgs` — the arguments of a call, one for each parameter.
-/

namespace BpScript

/-- The argument at an index; what was left out is null. -/
def argument (args : List Value) (i : Nat) : Value :=
  args[i]?.getD .null

/-- A value that has to be a text; `role` says what for. -/
def expectText (role : String) : Value → Action String
  | .text s => return s
  | v => throw (.type (.notAString role v.kind))

/-- A value from a part of the world that may refuse. -/
def orIo {α : Type} (result : Except FileError α) : Action α :=
  match result with
  | .ok a => return a
  | .error e => throw (.io e.message)

/-- A prompt; null is none. -/
def promptText : Value → Action String
  | .null => return ""
  | v => Action.render v

namespace Global

/-- Shows a prompt and reads a line. -/
def readLine (prompt : Value) : Action String := do
  let text ← promptText prompt
  modifyGet fun m =>
    let (line, console) := m.console.input text
    (line, { m with console })

/-- The number a value stands for. -/
def numberOf : Value → Action Value
  | .number n => return .number n
  | .boolean b => return .number (if b then 1 else 0)
  | .text s =>
    match Number.parse? (Text.trim s) with
    | some n => return .number n
    | none => throw (.type .notANumeral)
  | _ => throw (.type .noNumber)

/-- The truth value a value stands for. -/
def booleanOf : Value → Action Value
  | .boolean b => return .boolean b
  | .text s => return .boolean (Text.contains (Text.lower s) "true")
  | .number n => return .boolean (n == 1)
  | _ => throw (.type .noTruthValue)

/-- The number of characters, elements or entries of a value. -/
def lengthOf : Value → Action Value
  | .text s => return .ofNat s.length
  | .list l => return .ofNat (← Action.items l).size
  | .object o => return .ofNat (← Action.entries o).length
  | _ => throw (.type .noLength)

/-- The path of a file argument in the workspace. -/
def pathOf (v : Value) : Action String := do
  let name ← expectText "Path" v
  return (← get).workspace.resolveFile name

/-- Puts a changed workspace in place. -/
def setWorkspace (result : Except FileError Workspace) : Action Value := do
  let workspace ← orIo result
  modify fun m => { m with workspace }
  return .null

/-- What the functions of every root scope do. -/
def call (f : Global) (args : List Value) : Action Value := do
  let first := argument args 0
  match f with
  | print =>
    let text ← Action.render first
    modify fun m => { m with console := m.console.print text }
    return .null
  | input => return .text (← readLine first)
  | inputInt =>
    match Number.parseInteger? (Text.trim (← readLine first)) with
    | some n => return .number (Float.ofInt n)
    | none => return .null
  | clear =>
    modify fun m => { m with console := m.console.clear }
    return .null
  | isNumber => return .boolean (first.kind = .number)
  | isString => return .boolean (first.kind = .text)
  | isBoolean => return .boolean (first.kind = .boolean)
  | isNull => return .boolean (first.kind = .null)
  | isList => return .boolean (first.kind = .list)
  | isObject => return .boolean (first.kind = .object)
  | isFunction => return .boolean (first.kind = .closure || first.kind = .native)
  | toText => return .text (← Action.render first)
  | toNumber => numberOf first
  | toBoolean => booleanOf first
  | len => lengthOf first
  | readFile =>
    let path ← pathOf first
    return .text (← orIo ((← get).workspace.read path))
  | writeFile =>
    let path ← pathOf first
    let text ← Action.render (argument args 1)
    setWorkspace ((← get).workspace.write path text)
  | deleteFile =>
    let path ← pathOf first
    setWorkspace ((← get).workspace.delete path)

end Global

namespace TextMethod

/-- The list of some texts. -/
def listOf (parts : List String) : Action Value :=
  Action.newList (parts.map Value.text).toArray

/-- What the methods of the text `s` do. -/
def call (m : TextMethod) (s : String) (args : List Value) : Action Value := do
  match m with
  | len => return .ofNat s.length
  | upper => return .text (Text.upper s)
  | lower => return .text (Text.lower s)
  | trim => return .text (Text.trim s)
  | split =>
    match argument args 0 with
    | .null => listOf (Text.words s)
    | .text separator =>
      if separator.isEmpty then listOf (Text.characters s) else listOf (Text.splitOn s separator)
    | v => throw (.type (.notAString "Separator" v.kind))
  | contains =>
    let pattern ← expectText "Argument" (argument args 0)
    return .boolean (Text.contains s pattern)
  | replace =>
    let pattern ← expectText "First argument" (argument args 0)
    let replacement ← expectText "Second argument" (argument args 1)
    return .text (Text.replace s pattern replacement)

end TextMethod

namespace ListMethod

/-- The text between joined elements; null is none. -/
def separatorText : Value → Action String
  | .null => return ""
  | v => expectText "Separator" v

/-- Removes the element that a number means and gives it back. -/
def removeAt (l : ListId) (index : Float) : Action Value := do
  let items ← Action.items l
  match listIndex? index items.size with
  | some i =>
    let removed := items[i]?.getD .null
    Action.modifyItems l (·.eraseIdxIfInBounds i)
    return removed
  | none => throw (.outOfBounds index .remove)

/-- What the methods of the list `l` do. -/
def call (m : ListMethod) (l : ListId) (args : List Value) : Action Value := do
  match m with
  | len => return .ofNat (← Action.items l).size
  | append =>
    Action.modifyItems l (·.push (argument args 0))
    return .null
  | pop =>
    match argument args 0 with
    | .null => removeAt l (-1)
    | .number n => removeAt l n
    | _ => throw (.type .firstArgumentNumber)
  | extend =>
    match argument args 0 with
    | .list other =>
      let tail ← Action.items other
      Action.modifyItems l (· ++ tail)
      return .null
    | _ => throw (.type .firstArgumentList)
  | contains =>
    let store ← Action.store
    return .boolean ((store.items l).any fun v => store.equal v (argument args 0))
  | join =>
    let separator ← separatorText (argument args 0)
    let store ← Action.store
    return .text (separator.intercalate ((store.items l).toList.map store.render))
  | get =>
    match argument args 0 with
    | .number n =>
      let items ← Action.items l
      match (listIndex? n items.size).bind (items[·]?) with
      | some v => return v
      | none => throw (.outOfBounds n .retrieve)
    | _ => throw (.type .firstArgumentNumber)

end ListMethod

namespace ObjectMethod

/-- What the methods of the object `o` do. -/
def call (m : ObjectMethod) (o : ObjectId) (args : List Value) : Action Value := do
  match m with
  | keys => Action.newList ((← Action.entries o).keys.map Value.text).toArray
  | values => Action.newList (← Action.entries o).values.toArray
  | has =>
    let key ← expectText "Key" (argument args 0)
    return .boolean ((← Action.entries o).has key)
  | remove =>
    let key ← expectText "Key" (argument args 0)
    let entries ← Action.entries o
    Action.modifyEntries o (·.erase key)
    return (entries.get? key).getD .null

end ObjectMethod

namespace FunctionMethod

/-- What the methods of the function `f` do. -/
def call (m : FunctionMethod) (f : Callable) : Action Value :=
  match m with
  | .name => return .text f.name
  | .arity => return .ofNat f.arity

end FunctionMethod

/-- Runs a built-in function. -/
def Native.call (f : Native) (args : List Value) : Action Value :=
  match f with
  | .global g => g.call args
  | .text m s => m.call s args
  | .list m l => m.call l args
  | .object m o => m.call o args
  | .function m g => m.call g

/-- What `value.name` is: a method if the value has one of this name, else an entry of an object. -/
def Value.member (value : Value) (name : String) : Action Value := do
  match value.methods.find? (·.name = name) with
  | some method => return .callable (.native method)
  | none =>
    match value with
    | .object o =>
      match (← Action.entries o).get? name with
      | some v => return v
      | none => throw (.undefined name)
    | _ => throw (.undefined name)

/-- The arguments of a call, one for each parameter: null stands for those left out. -/
def bindArgs (f : Callable) (args : List Value) : Except Fault (List Value) :=
  let total := f.arity
  let required := (f.optionals.takeWhile (!·)).length
  if total < args.length then .error (.tooManyArguments f.name (args.length - total))
  else if args.length < required then .error (.tooFewArguments f.name (required - args.length))
  else .ok (args ++ List.replicate (total - args.length) .null)

end BpScript
