import BpScript.Session

/-!
# Watching a run

A run passes through many points: every time a node is evaluated, and every time a built-in function
is called.  To say that something holds at **every** point of a run, the run is watched: a check is
made at each point, and where it fails an alarm goes off.  If the watched run is the run itself,
whatever the alarm does, then the check held everywhere.

* `Activity` — the calls and imports that are in progress at a point.
* `Point`, `Check` — what is about to happen there, and what is asked of it.
* `Construct.invokeBy`, `Construct.loadBy`, `Node.evalFormBy` — calls and imports go on with
  something else than the caller does.  `Construct.invokeWith` tells errors in another way, too.
* `Node.watch` — evaluation with a check at each point.
* `Machine.Always` — the check holds at every point of a run.
-/

namespace BpScript

/-! ## Points -/

/-- A call or an import in progress. -/
inductive Activity where
  | call (name : String)
  | module (path : String)
  deriving DecidableEq, Repr

/-- What is about to happen. -/
inductive Point where
  | node (node : Node)
  | native (function : Native)

/-- What is asked of a point: it depends on the calls and imports around it, innermost first, and on
the state. -/
abbrev Check := List Activity → Machine → Point → Bool

/-! ## Going on with something else -/

namespace Construct

/-- Calls a function, when `apply` runs it. -/
def invokeBy (apply : Callable → List Value → Span → Eval Value) (f : Callable) (args : List Value)
    (span : Span) : Eval Value := do
  match bindArgs f args with
  | .error fault => Eval.raise fault span
  | .ok args =>
    if maxCallDepth < (← get).contexts.size then Eval.raise (.tooDeep maxCallDepth) span
    else
      let caller := ((← get).contexts.back?).getD ""
      match ← Eval.inContext f.name (apply f args span) with
      | .error (.error e) => throw (.error (e.leaving caller span))
      | outcome => Eval.conclude outcome

theorem invoke_eq (visit : Visit) : invoke visit = invokeBy (apply visit) := rfl

/-- Calls a function, when `apply` runs it and `leave` tells its errors once they have left it,
given the context of the call. -/
def invokeWith (apply : Callable → List Value → Span → Eval Value)
    (leave : String → Diagnostic → Diagnostic) (f : Callable) (args : List Value) (span : Span) :
    Eval Value := do
  match bindArgs f args with
  | .error fault => Eval.raise fault span
  | .ok args =>
    if maxCallDepth < (← get).contexts.size then Eval.raise (.tooDeep maxCallDepth) span
    else
      let caller := ((← get).contexts.back?).getD ""
      match ← Eval.inContext f.name (apply f args span) with
      | .error (.error e) => throw (.error (leave caller e))
      | outcome => Eval.conclude outcome

theorem invokeBy_eq (apply : Callable → List Value → Span → Eval Value) (f : Callable)
    (args : List Value) (span : Span) :
    invokeBy apply f args span =
      invokeWith apply (fun caller e => e.leaving caller span) f args span := rfl

/-- A call expression, when `invoke` makes the call. -/
def callBy (visit : Visit) (invoke : Callable → List Value → Span → Eval Value) (scope : ScopeId)
    (callee : Node) (args : List Node) (span : Span) : Eval Value := do
  let f ← visit scope callee
  let values ← evalAll visit scope args
  match f with
  | .callable f => invoke f values span
  | v => Eval.raise (.illegalOperation v.kind) callee.span

/-- Imports a library, when `run` runs its text. -/
def loadBy (run : (path lib text : String) → ScopeId → Eval (Except Diagnostic Value))
    (lib : String) (span : Span) : Eval Value := do
  let path := (← get).workspace.resolveLib lib
  if (← get).importing.any (Path.same path) then Eval.raise (.circularImport path) span
  else
    match (← get).workspace.read path with
    | .error e => Eval.raise (.unreadableScript path e.message) span
    | .ok text =>
      let scope ← Eval.newRoot
      match ← run path lib text scope with
      | .error e => Eval.raise (.failedScript path e.traceback) span
      | .ok _ => Eval.newObject (Table.ofEntries ((← get).store.publicSymbols scope))

theorem load_eq (visit : Visit) : load visit = loadBy (runModule visit) := rfl

/-- `import lib as name`, when `load` imports the library. -/
def importBy (visit : Visit) (load : String → Span → Eval Value) (scope : ScopeId) (lib : Node)
    (name : Ident) (span : Span) : Eval Value := do
  match ← visit scope lib with
  | .text lib =>
    let exported ← load lib span
    Eval.bind scope name.name exported false
    return .null
  | _ => Eval.raise (.type .libraryName) span

end Construct

namespace Node

/-- Evaluates a node, when `invoke` makes its calls and `load` its imports. -/
def evalFormBy (bound : Nat) (visit : Visit) (invoke : Callable → List Value → Span → Eval Value)
    (load : String → Span → Eval Value) (scope : ScopeId) (node : Node) : Eval Value :=
  match node.form with
  | .call callee args => Construct.callBy visit invoke scope callee args node.span
  | .importAs lib name => Construct.importBy visit load scope lib name node.span
  | _ => evalForm bound visit scope node

theorem evalForm_eq (bound : Nat) (visit : Visit) :
    evalForm bound visit =
      evalFormBy bound visit (Construct.invoke visit) (Construct.load visit) := by
  funext scope node
  obtain ⟨form, span⟩ := node
  cases form <;> rfl

/-! ## Watching -/

section Watch

variable (check : Check) (alarm : Option (Eval Value))

/-- Goes on at a point if the check holds there.  Without an alarm no check is made. -/
def watchPoint (around : List Activity) (point : Point) (step : Eval Value) : Eval Value :=
  match alarm with
  | none => step
  | some alarm => do if check around (← get) point then step else alarm

/-- Runs a function on one argument for each parameter.  A built-in function is a point. -/
def watchApply (around : List Activity) (visit : Visit) (f : Callable) (args : List Value)
    (span : Span) : Eval Value :=
  match f with
  | .closure c => Construct.runClosure visit c args
  | .native n => watchPoint check alarm around (.native n) (Eval.located span (n.call args))

/-- Evaluates a node within a bound, and makes a check at each point. -/
def watch : (bound : Nat) → List Activity → Visit
  | 0, around, _, node => watchPoint check alarm around (.node node) (throw .exhausted)
  | bound + 1, around, scope, node =>
    watchPoint check alarm around (.node node) <|
      evalFormBy (bound + 1) (watch bound around)
        (Construct.invokeBy fun f =>
          watchApply check alarm (.call f.name :: around) (watch bound (.call f.name :: around)) f)
        (Construct.loadBy fun path =>
          Construct.runModule (watch bound (.module path :: around)) path)
        scope node

theorem watchApply_none (around : List Activity) (visit : Visit) :
    watchApply check none around visit = Construct.apply visit := by
  funext f args span
  cases f <;> rfl

/-- Without an alarm, watching is evaluating. -/
theorem watch_none : ∀ (bound : Nat) (around : List Activity),
    watch check none bound around = evalWithin bound
  | 0, _ => rfl
  | bound + 1, around => by
    funext scope node
    show evalFormBy _ _ _ _ scope node = evalForm (bound + 1) (evalWithin bound) scope node
    simp only [evalForm_eq, Construct.invoke_eq, Construct.load_eq, watch_none bound,
      watchApply_none]

end Watch

end Node

/-- The check holds at every point of the run of a program from `m`: an alarm could do whatever it
wants. -/
def Machine.Always (check : Check) (bound : Nat) (m : Machine) (scope : ScopeId) (root : Node) :
    Prop :=
  ∀ alarm, (Construct.program (Node.watch check (some alarm) bound []) scope root).run m =
    (Construct.program (Node.evalWithin bound) scope root).run m

end BpScript
