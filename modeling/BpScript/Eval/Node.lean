import BpScript.Eval.Loop
import BpScript.Tree.Parser

/-!
# Evaluating nodes

What each sort of node does.  Nodes inside a node are evaluated through `visit : Visit`, so that
each definition below covers one construct and only `Node.evalWithin` is recursive.

* `Construct.*` — one definition per construct.
* `Construct.invoke` — a call, once the function and its arguments are known.
* `Construct.load` — an import: the module runs in a root scope of its own, and what it exports
  becomes an object.
* `Node.evalWithin` — any node, with a bound on nesting and on the iterations of a loop.
-/

namespace BpScript

/-- How many calls and modules may be in progress. -/
def maxCallDepth : Nat := 10000

namespace Construct

variable (visit : Visit)

/-! ## Containers -/

/-- Evaluates nodes in order. -/
def evalAll (scope : ScopeId) (nodes : List Node) : Eval (List Value) :=
  nodes.mapM (visit scope)

/-- The list of the values of some nodes. -/
def list (scope : ScopeId) (items : List Node) : Eval Value := do
  Eval.newList (← evalAll visit scope items).toArray

/-- An object literal.  Of two entries with one name the later value counts. -/
def object (scope : ScopeId) (entries : List (Ident × Node)) : Eval Value := do
  let values ← evalAll visit scope (entries.map (·.2))
  Eval.newObject (Table.ofEntries ((entries.map (·.1.name)).zip values))

/-! ## Names -/

/-- `let x = v` -/
def declare (scope : ScopeId) (name : Ident) (value : Node) (isPublic : Bool) : Eval Value := do
  let v ← visit scope value
  Eval.bind scope name.name v isPublic
  return v

/-- `x = v`, `x += v` and `x -= v`.  The name has to be bound somewhere; the new value is bound in
the current scope, with the visibility it had. -/
def update (scope : ScopeId) (name : Ident) (op : AssignOp) (value : Node) : Eval Value := do
  let old ← Eval.lookup scope name
  let v ← visit scope value
  let updated ← Eval.located value.span (Operator.assign op old.value v)
  Eval.bind scope name.name updated old.isPublic
  return updated

/-- A value on the way of a dotted assignment, which has to be an object. -/
def expectObject (name : Ident) : Value → Eval ObjectId
  | .object id => return id
  | _ => Eval.raise (.type (.notAnObject name.name)) name.span

/-- The value of a name in an object. -/
def entryOf (object : ObjectId) (name : Ident) : Eval Value := do
  Eval.orRaise (((← get).store.entries object).get? name.name) (.undefined name.name) name.span

/-- Follows the names of a dotted path from an object, up to the object that holds the last one. -/
def ownerOf (object : ObjectId) : Ident → List Ident → Eval (ObjectId × Ident)
  | last, [] => return (object, last)
  | segment, next :: rest => do
    ownerOf (← expectObject segment (← entryOf object segment)) next rest

/-- `a.b.c = v` and its like.  Every name but the last has to lead to an object.  A path has at
least two names; a shorter one would assign nothing. -/
def memberAssign (scope : ScopeId) (path : List Ident) (op : AssignOp) (value : Node) :
    Eval Value := do
  match path with
  | first :: second :: rest =>
    let root ← expectObject first (← Eval.lookup scope first).value
    let (owner, last) ← ownerOf root second rest
    let v ← visit scope value
    let updated ← match op with
      | .set => pure v
      | _ => do
        let old ← entryOf owner last
        Eval.located value.span (Operator.assign op old v)
    Eval.located value.span (Action.modifyEntries owner (·.set last.name updated))
    return updated
  | _ => return .null

/-! ## Operators -/

/-- A binary operator.  Both operands are always evaluated. -/
def binary (scope : ScopeId) (lhs : Node) (op : BinaryOp) (rhs : Node) : Eval Value := do
  let left ← visit scope lhs
  let right ← visit scope rhs
  Eval.located rhs.span (Operator.binary op left right)

/-- A unary operator. -/
def unary (scope : ScopeId) (op : UnaryOp) (operand : Node) : Eval Value := do
  let v ← visit scope operand
  Eval.located operand.span (Operator.unary op v)

/-- `target.member` -/
def member (scope : ScopeId) (target : Node) (name : Ident) : Eval Value := do
  let receiver ← visit scope target
  Eval.located name.span (receiver.member name.name)

/-! ## Choices -/

/-- The body of an arm.  A block has no value of its own. -/
def armBody (scope : ScopeId) (body : Body) : Eval Value := do
  let v ← visit scope body.node
  return if body.isBlock then .null else v

/-- The first arm whose condition holds. -/
def conditional (scope : ScopeId) (otherwise : Option Body) : List (Node × Body) → Eval Value
  | [] =>
    match otherwise with
    | some body => armBody visit scope body
    | none => return .null
  | (condition, body) :: rest => do
    if (← visit scope condition).isTruthy then armBody visit scope body
    else conditional scope otherwise rest

/-- The first case whose pattern equals the subject. -/
def switchCases (scope : ScopeId) (subject : Value) (otherwise : Option Node) :
    List (Node × Node) → Eval Value
  | [] => do
    match otherwise with
    | some body =>
      discard <| visit scope body
      return .null
    | none => return .null
  | (pattern, body) :: rest => do
    let v ← visit scope pattern
    if (← get).store.equal v subject then
      discard <| visit scope body
      return .null
    else switchCases scope subject otherwise rest

/-! ## Loops -/

/-- A number that a counting loop needs. -/
def numberFor (scope : ScopeId) (node : Node) : Eval Float := do
  match ← visit scope node with
  | .number n => return n
  | _ => Eval.raise (.type .expectedNumber) node.span

/-- `for i = a to b step c` -/
def forCount (bound : Nat) (scope : ScopeId) (name : Ident) (first last : Node) (step : Option Node)
    (body : Body) : Eval Value := do
  let start ← numberFor visit scope first
  let stop ← numberFor visit scope last
  let stride ← match step with
    | some node => numberFor visit scope node
    | none => pure 1
  let values ← Loop.run (Loop.countStep scope name.name stop stride) (visit scope body.node) bound
    start #[]
  Loop.value body.isBlock values

/-- `for x of list` -/
def forList (bound : Nat) (scope : ScopeId) (name : Ident) (list : Node) (body : Body) :
    Eval Value := do
  match ← visit scope list with
  | .list id =>
    let values ← Loop.run (Loop.listStep scope name.name id) (visit scope body.node) bound 0 #[]
    Loop.value body.isBlock values
  | _ => Eval.raise (.type .expectedList) list.span

/-- `for k, v of object` -/
def forObject (bound : Nat) (scope : ScopeId) (key value : Ident) (object : Node) (body : Body) :
    Eval Value := do
  match ← visit scope object with
  | .object id =>
    let values ← Loop.run (Loop.objectStep scope key.name value.name) (visit scope body.node) bound
      ((← get).store.entries id) #[]
    Loop.value body.isBlock values
  | _ => Eval.raise (.type .expectedObject) object.span

/-- `while c` -/
def whileLoop (bound : Nat) (scope : ScopeId) (condition : Node) (body : Body) : Eval Value := do
  let values ← Loop.run (Loop.whileStep (visit scope condition)) (visit scope body.node) bound ()
    #[]
  Loop.value body.isBlock values

/-! ## Functions -/

/-- A function, which is bound if it has a name. -/
def function (scope : ScopeId) (definition : Function) : Eval Value := do
  let f : Value := .callable (.closure ⟨definition, scope⟩)
  match definition.ident with
  | some name => Eval.bind scope name.name f definition.isPublic
  | none => pure ()
  return f

/-- Runs a function of a script in a scope of its own, inside the one it was made in. -/
def runClosure (c : Closure) (args : List Value) : Eval Value := do
  let names := c.definition.params.map (·.ident.name)
  let bindings := Table.ofEntries (names.zip (args.map fun v => ⟨v, false⟩))
  let scope ← Eval.newScope ⟨bindings, some c.scope⟩
  match ← Eval.observe (visit scope c.definition.body) with
  | .ok v => return if c.definition.autoReturn then v else .null
  | .error (.returned v) => return v
  | .error signal => throw signal

/-- Runs a function on one argument for each parameter. -/
def apply (f : Callable) (args : List Value) (span : Span) : Eval Value :=
  match f with
  | .closure c => runClosure visit c args
  | .native n => Eval.located span (n.call args)

/-- Calls a function.  An error that leaves the call takes along where the call was made. -/
def invoke (f : Callable) (args : List Value) (span : Span) : Eval Value := do
  match bindArgs f args with
  | .error fault => Eval.raise fault span
  | .ok args =>
    if maxCallDepth < (← get).contexts.size then Eval.raise (.tooDeep maxCallDepth) span
    else
      let caller := ((← get).contexts.back?).getD ""
      match ← Eval.inContext f.name (apply visit f args span) with
      | .error (.error e) => throw (.error (e.leaving caller span))
      | outcome => Eval.conclude outcome

/-- A call expression: first the function, then the arguments. -/
def call (scope : ScopeId) (callee : Node) (args : List Node) (span : Span) : Eval Value := do
  let f ← visit scope callee
  let values ← evalAll visit scope args
  match f with
  | .callable f => invoke visit f values span
  | v => Eval.raise (.illegalOperation v.kind) callee.span

/-! ## Modules -/

/-- Runs a whole program.  A `return` outside of all functions ends it early.  Loop signals are
rejected outside of loops, so none leaves a program. -/
def program (scope : ScopeId) (root : Node) : Eval (Except Diagnostic Value) := do
  match ← Eval.observe (visit scope root) with
  | .ok v | .error (.returned v) => return .ok v
  | .error (.error e) => return .error e
  | .error .broke | .error .continued => throw .unreachable
  | .error signal => throw signal

/-- Runs the text of a module in a root scope, inside its import. -/
def runModule (path lib text : String) (scope : ScopeId) : Eval (Except Diagnostic Value) := do
  match Node.ofSource ⟨lib, text⟩ with
  | .error (.report e) => return .error e
  | .error .exhausted => throw .exhausted
  | .ok root =>
    Eval.whileImporting path do
      Eval.conclude (← Eval.inContext s!"<module {lib}>" (program visit scope root))

/-- Imports a library: runs it and collects what it exports into an object. -/
def load (lib : String) (span : Span) : Eval Value := do
  let path := (← get).workspace.resolveLib lib
  if (← get).importing.any (Path.same path) then Eval.raise (.circularImport path) span
  else
    match (← get).workspace.read path with
    | .error e => Eval.raise (.unreadableScript path e.message) span
    | .ok text =>
      let scope ← Eval.newRoot
      match ← runModule visit path lib text scope with
      | .error e => Eval.raise (.failedScript path e.traceback) span
      | .ok _ => Eval.newObject (Table.ofEntries ((← get).store.publicSymbols scope))

/-- `import lib as name` -/
def importAs (scope : ScopeId) (lib : Node) (name : Ident) (span : Span) : Eval Value := do
  match ← visit scope lib with
  | .text lib =>
    let exported ← load visit lib span
    Eval.bind scope name.name exported false
    return .null
  | _ => Eval.raise (.type .libraryName) span

/-! ## Signals -/

/-- `return` -/
def returnValue (scope : ScopeId) (value : Option Node) : Eval Value := do
  let v ← match value with
    | some node => visit scope node
    | none => pure .null
  throw (.returned v)

/-- `break` and `continue`, which need a loop around them. -/
def leaveIteration (keyword : Keyword) (signal : Signal) (span : Span) : Eval Value := do
  if (← get).loopDepth = 0 then Eval.raise (.outsideLoop keyword) span
  else throw signal

end Construct

namespace Node

/-- Evaluates a node, when `visit` evaluates the nodes inside it and no loop runs more than `bound`
times. -/
def evalForm (bound : Nat) (visit : Visit) (scope : ScopeId) (node : Node) : Eval Value :=
  match node.form with
  | .number x => return .number x
  | .text s => return .text s
  | .boolean b => return .boolean b
  | .null => return .null
  | .list items => Construct.list visit scope items
  | .object entries => Construct.object visit scope entries
  | .access name => return (← Eval.lookup scope name).value
  | .member target name => Construct.member visit scope target name
  | .assign name op value declares isPublic =>
    if declares then Construct.declare visit scope name value isPublic
    else Construct.update visit scope name op value
  | .memberAssign path op value => Construct.memberAssign visit scope path op value
  | .binary lhs op rhs => Construct.binary visit scope lhs op rhs
  | .unary op operand => Construct.unary visit scope op operand
  | .ifElse arms otherwise => Construct.conditional visit scope otherwise arms
  | .switch subject cases otherwise => do
    Construct.switchCases visit scope (← visit scope subject) otherwise cases
  | .forCount name first last step body =>
    Construct.forCount visit bound scope name first last step body
  | .forList name list body => Construct.forList visit bound scope name list body
  | .forObject key value object body =>
    Construct.forObject visit bound scope key value object body
  | .whileLoop condition body => Construct.whileLoop visit bound scope condition body
  | .function definition => Construct.function scope definition
  | .call callee args => Construct.call visit scope callee args node.span
  | .importAs lib name => Construct.importAs visit scope lib name node.span
  | .returnValue value => Construct.returnValue visit scope value
  | .breakLoop => Construct.leaveIteration .break_ .broke node.span
  | .continueLoop => Construct.leaveIteration .continue_ .continued node.span
  | .block statements => Construct.list visit scope statements

/-- Evaluates a node in a scope.  `bound` limits how deep nodes nest and how often loops repeat. -/
def evalWithin : (bound : Nat) → Visit
  | 0, _, _ => throw .exhausted
  | bound + 1, scope, node => evalForm (bound + 1) (evalWithin bound) scope node

end Node

end BpScript
