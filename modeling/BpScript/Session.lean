import BpScript.Eval.Node

/-!
# Running scripts

A session keeps the state between scripts: what one of them binds, the next one finds.

* `Machine.run` — reads and evaluates a source in a scope.
* `Session` — a state with the scope that is current in it.
* `Session.start`, `Session.run` — a fresh session, and a script in it.
* `Session.push`, `Session.pop`, `Session.fresh` — other current scopes.
-/

namespace BpScript

/-- How a run ends. -/
inductive RunOutcome where
  | value (value : Value)
  | error (error : Diagnostic)
  /-- The bound on nesting and repetition was too low. -/
  | unfinished

/-- How deep nodes may nest in a run, and how often its loops may repeat: more than any machine
could carry out. -/
def runBound : Nat := 0x1000000000000000

/-- Reads and evaluates a source in a scope, within some bound. -/
def Machine.runWithin (bound : Nat) (m : Machine) (scope : ScopeId) (source : Source) :
    RunOutcome × Machine :=
  match Node.ofSource source with
  | .error (.report e) => (.error e, m)
  | .error .exhausted => (.unfinished, m)
  | .ok root =>
    match (Construct.program (Node.evalWithin bound) scope root).run m with
    | (.ok (.ok v), m) => (.value v, m)
    | (.ok (.error e), m) => (.error e, m)
    | (.error _, m) => (.unfinished, m)

/-- Reads and evaluates a source in a scope. -/
def Machine.run (m : Machine) (scope : ScopeId) (source : Source) : RunOutcome × Machine :=
  m.runWithin runBound scope source

/-- A state with its current scope. -/
structure Session where
  machine : Machine
  scope : ScopeId

namespace Session

/-- Makes a new root scope the current one. -/
def fresh (s : Session) : Session :=
  let (scope, store) := s.machine.store.newRoot
  ⟨{ s.machine with store }, scope⟩

/-- A session before its first script. -/
def start (console : Console) (workspace : Workspace) : Session :=
  fresh ⟨.start console workspace, ⟨0⟩⟩

/-- Runs a script in the current scope. -/
def run (s : Session) (source : Source) : RunOutcome × Session :=
  let (outcome, machine) := s.machine.run s.scope source
  (outcome, { s with machine })

/-- What a name stands for in the current scope. -/
def lookup (s : Session) (name : String) : Option Binding :=
  s.machine.store.lookup s.scope name

/-- Changes the store. -/
def withStore (s : Session) (store : Store) : Session :=
  { s with machine := { s.machine with store } }

/-- Binds a name in the current scope. -/
def bind (s : Session) (name : String) (binding : Binding) : Session :=
  s.withStore (s.machine.store.bind s.scope name binding)

/-- Removes a name from the current scope, and gives what it stood for there. -/
def unbind (s : Session) (name : String) : Option Value × Session :=
  let old := (s.machine.store.bindings s.scope).get? name
  (old.map (·.value), s.withStore (s.machine.store.unbind s.scope name))

/-- Opens a scope inside the current one. -/
def push (s : Session) : Session :=
  let (scope, store) := s.machine.store.newScope ⟨[], some s.scope⟩
  { s.withStore store with scope }

/-- Goes back to the scope around the current one, if there is one. -/
def pop (s : Session) : Bool × Session :=
  match s.machine.store.parent? s.scope with
  | some scope => (true, { s with scope })
  | none => (false, s)

/-- What the current scope exports. -/
def publicSymbols (s : Session) : List (String × Value) :=
  s.machine.store.publicSymbols s.scope

/-- The files of the session. -/
def workspace (s : Session) : Workspace :=
  s.machine.workspace

/-- Changes the files. -/
def withWorkspace (s : Session) (workspace : Workspace) : Session :=
  { s with machine := { s.machine with workspace } }

/-- Reads a file by name. -/
def read (s : Session) (name : String) : Except FileError String :=
  s.workspace.read (s.workspace.resolveFile name)

/-- Writes a file by name. -/
def write (s : Session) (name text : String) : Except FileError Session :=
  (s.workspace.write (s.workspace.resolveFile name) text).map s.withWorkspace

/-- Deletes a file by name. -/
def delete (s : Session) (name : String) : Except FileError Session :=
  (s.workspace.delete (s.workspace.resolveFile name)).map s.withWorkspace

end Session

end BpScript
