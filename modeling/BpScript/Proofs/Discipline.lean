import BpScript.Proofs.Run

/-!
# Disciplines

Many facts about runs have one shape: the store is sound, values refer only to what they may refer
to, code runs only in scopes it may run in, and the store changes only in certain ways.  A
`Discipline` is such a fact, given by what it has to say about the **elementary** changes of a
store.  That evaluation as a whole keeps it is proved once, for all disciplines
(`Node.evalWithin_keeps` in `BpScript.Proofs.Discipline.Construct`).

* `Ref`, `Value.ref?` — a value refers to at most one list, object or closure.
* `Form.parts` — the nodes that are evaluated along with a node, in the same scope.
* `Origin` — what a scope is made for: a call or a module.
* `Discipline` — the predicates, and the laws of elementary changes.
* `Discipline.Keeps` — a step, run from a state, keeps a discipline.  Two special cases carry all
  proofs: `Evaluates` for steps of evaluation and `Performs` for actions of operators and built-in
  functions.
* `Keeps.bind` — sequences.  What is known of the state before is carried along by `Later`.

Every step of evaluation also returns to the place it started from, and raises loop signals only
inside a loop.  These two facts hold under every discipline, so they are part of `Keeps`.
-/

namespace BpScript

/-! ## References -/

/-- What a value can refer to. -/
inductive Ref where
  | list (id : ListId)
  | object (id : ObjectId)
  | closure (closure : Closure)

mutual

/-- What a function refers to. -/
def Callable.ref? : Callable → Option Ref
  | .closure c => some (.closure c)
  | .native n => n.ref?

/-- What a built-in function refers to: a method refers to what its receiver refers to. -/
def Native.ref? : Native → Option Ref
  | .global _ => none
  | .text _ _ => none
  | .list _ l => some (.list l)
  | .object _ o => some (.object o)
  | .function _ f => f.ref?

end

/-- What a value refers to. -/
def Value.ref? : Value → Option Ref
  | .list l => some (.list l)
  | .object o => some (.object o)
  | .callable f => f.ref?
  | _ => none

/-- What the value refers to, if anything, satisfies `P`. -/
def Value.Within (P : Ref → Prop) (v : Value) : Prop :=
  ∀ r, v.ref? = some r → P r

theorem Value.within_of_ref?_eq_none {P : Ref → Prop} {v : Value} (h : v.ref? = none) :
    v.Within P := by
  intro r hr
  rw [h] at hr
  cases hr

theorem Value.within_of_ref?_eq {P : Ref → Prop} {v w : Value} (h : w.ref? = v.ref?)
    (hv : v.Within P) : w.Within P := by
  intro r hr
  rw [h] at hr
  exact hv r hr

theorem Value.Within.mono {P Q : Ref → Prop} {v : Value} (hv : v.Within P)
    (h : ∀ r, P r → Q r) : v.Within Q :=
  fun r hr => h r (hv r hr)

@[simp] theorem Value.within_list {P : Ref → Prop} {l : ListId} :
    (Value.list l).Within P ↔ P (.list l) := by
  simp [Within, ref?]

@[simp] theorem Value.within_object {P : Ref → Prop} {o : ObjectId} :
    (Value.object o).Within P ↔ P (.object o) := by
  simp [Within, ref?]

@[simp] theorem Value.within_closure {P : Ref → Prop} {c : Closure} :
    (Value.callable (.closure c)).Within P ↔ P (.closure c) := by
  simp [Within, ref?, Callable.ref?]

@[simp] theorem Value.within_null {P : Ref → Prop} : Value.null.Within P :=
  within_of_ref?_eq_none rfl

/-- A method refers to what the value it was looked up on refers to. -/
theorem Value.ref?_of_mem_methods {v : Value} {method : Native} (h : method ∈ v.methods) :
    (Value.callable (.native method)).ref? = v.ref? := by
  cases v with
  | text s =>
    obtain ⟨m, -, rfl⟩ := List.mem_map.1 h
    rfl
  | list l =>
    obtain ⟨m, -, rfl⟩ := List.mem_map.1 h
    rfl
  | object o =>
    obtain ⟨m, -, rfl⟩ := List.mem_map.1 h
    rfl
  | callable f =>
    obtain ⟨m, -, rfl⟩ := List.mem_map.1 h
    rfl
  | number _ => simp [methods] at h
  | boolean _ => simp [methods] at h
  | null => simp [methods] at h

/-! ## Parts of nodes -/

/-- The nodes that are evaluated along with a node of this form, in the same scope.  The body of a
function is none of them: it runs when the function is called, and elsewhere. -/
def Form.parts : Form → List Node
  | .list items => items
  | .object entries => entries.map (·.2)
  | .member target _ => [target]
  | .assign _ _ value _ _ => [value]
  | .memberAssign _ _ value => [value]
  | .binary lhs _ rhs => [lhs, rhs]
  | .unary _ operand => [operand]
  | .ifElse arms otherwise =>
    arms.flatMap (fun arm => [arm.1, arm.2.node]) ++ otherwise.toList.map Body.node
  | .switch subject cases otherwise =>
    subject :: cases.flatMap (fun entry => [entry.1, entry.2]) ++ otherwise.toList
  | .forCount _ first last step body => [first, last] ++ step.toList ++ [body.node]
  | .forList _ items body => [items, body.node]
  | .forObject _ _ entries body => [entries, body.node]
  | .whileLoop condition body => [condition, body.node]
  | .call callee args => callee :: args
  | .importAs lib _ => [lib]
  | .returnValue value => value.toList
  | .block statements => statements
  | _ => []

theorem Form.mem_parts_of_arm {arms : List (Node × Body)} {otherwise : Option Body}
    {arm : Node × Body} (h : arm ∈ arms) :
    arm.1 ∈ (Form.ifElse arms otherwise).parts ∧
      arm.2.node ∈ (Form.ifElse arms otherwise).parts := by
  have hmem : ∀ node ∈ [arm.1, arm.2.node], node ∈ (Form.ifElse arms otherwise).parts :=
    fun node hnode => List.mem_append_left _ (List.mem_flatMap.2 ⟨arm, h, hnode⟩)
  exact ⟨hmem _ (by simp), hmem _ (by simp)⟩

theorem Form.mem_parts_of_case {subject : Node} {cases : List (Node × Node)}
    {otherwise : Option Node} {entry : Node × Node} (h : entry ∈ cases) :
    entry.1 ∈ (Form.switch subject cases otherwise).parts ∧
      entry.2 ∈ (Form.switch subject cases otherwise).parts := by
  have hmem : ∀ node ∈ [entry.1, entry.2], node ∈ (Form.switch subject cases otherwise).parts :=
    fun node hnode => List.mem_append_left _
      (List.mem_cons_of_mem _ (List.mem_flatMap.2 ⟨entry, h, hnode⟩))
  exact ⟨hmem _ (by simp), hmem _ (by simp)⟩

/-- The names that are at fault when a node of this form itself fails: those it looks up. -/
def Form.lookups : Form → List Ident
  | .access name => [name]
  | .member _ name => [name]
  | .assign name _ _ _ _ => [name]
  | .memberAssign path _ _ => path
  | _ => []

/-! ## Origins -/

/-- What a scope is made for. -/
inductive Origin where
  | call (closure : Closure)
  | module (source : Source)

/-! ## The laws -/

/-- A discipline for runs.  `W` is what the run of a program or module knows about itself and
hands on to the calls it makes; the run of an imported module has a `W` of its own. -/
structure Discipline (W : Type) where
  /-- The stores of a run. -/
  Sound : W → Store → Prop
  /-- What the values of a run refer to. -/
  Refers : W → Store → Ref → Prop
  /-- Which nodes are evaluated in which scope. -/
  Runs : W → Store → ScopeId → Node → Prop
  /-- Whether a run imports modules. -/
  Imports : W → Prop
  /-- How the store changes while a node is evaluated in a scope. -/
  Grows : W → ScopeId → Store → Store → Prop
  /-- The visibility of what is bound in a run. -/
  Shows : W → Bool → Prop := fun _ _ => True
  /-- The places that errors of a run are at. -/
  Points : W → Span → Prop := fun _ _ => True
  /-- What new scopes are used for. -/
  Makes : W → ScopeId → Origin → Prop := fun _ _ _ => True
  grows_refl : ∀ w E s, Grows w E s s
  grows_trans : ∀ {w E a b c}, Grows w E a b → Grows w E b c → Grows w E a c
  refers_mono : ∀ {w E s s' r}, Grows w E s s' → Refers w s r → Refers w s' r
  runs_mono : ∀ {w E s s' E' node}, Grows w E s s' → Runs w s E' node → Runs w s' E' node
  runs_part : ∀ {w s E node part}, Runs w s E node → part ∈ node.form.parts → Runs w s E part
  imports_of_runs : ∀ {w s E node lib name}, Runs w s E node →
    node.form = .importAs lib name → Imports w
  refers_closure : ∀ {w s E node definition}, Runs w s E node →
    node.form = .function definition → Refers w s (.closure ⟨definition, E⟩)
  items_within : ∀ {w s l v}, Sound w s → Refers w s (.list l) → v ∈ s.items l →
    v.Within (Refers w s)
  entries_within : ∀ {w s o entry}, Sound w s → Refers w s (.object o) → entry ∈ s.entries o →
    entry.2.Within (Refers w s)
  lookup_within : ∀ {w s E node name binding}, Sound w s → Runs w s E node →
    s.lookup E name = some binding → binding.value.Within (Refers w s)
  shows_private : ∀ w, Shows w false := by intros; trivial
  shows_declared : ∀ {w s E node name op value isPublic}, Runs w s E node →
    node.form = .assign name op value true isPublic → Shows w isPublic := by intros; trivial
  shows_function : ∀ {w s E node definition}, Runs w s E node →
    node.form = .function definition → Shows w definition.isPublic := by intros; trivial
  shows_lookup : ∀ {w s E node name binding}, Sound w s → Runs w s E node →
    s.lookup E name = some binding → Shows w binding.isPublic := by intros; trivial
  points_node : ∀ {w s E node}, Runs w s E node → Points w node.span := by intros; trivial
  points_lookup : ∀ {w s E node name}, Runs w s E node → name ∈ node.form.lookups →
    Points w name.span := by intros; trivial
  newList : ∀ {w s items} E, Sound w s → (∀ v ∈ items, v.Within (Refers w s)) →
    Sound w (s.newList items).2 ∧ Grows w E s (s.newList items).2 ∧
      Refers w (s.newList items).2 (.list (s.newList items).1)
  newObject : ∀ {w s entries} E, Sound w s → entries.keys.Nodup →
    (∀ entry ∈ entries, entry.2.Within (Refers w s)) →
    Sound w (s.newObject entries).2 ∧ Grows w E s (s.newObject entries).2 ∧
      Refers w (s.newObject entries).2 (.object (s.newObject entries).1)
  bind : ∀ {w s E node name binding}, Sound w s → Runs w s E node →
    binding.value.Within (Refers w s) → Shows w binding.isPublic →
    Sound w (s.bind E name binding) ∧ Grows w E s (s.bind E name binding)
  modifyItems : ∀ {w s l f} E, Sound w s → Refers w s (.list l) →
    (∀ v ∈ f (s.items l), v.Within (Refers w s)) →
    Sound w (s.modifyItems l f) ∧ Grows w E s (s.modifyItems l f)
  modifyEntries : ∀ {w s o f} E, Sound w s → Refers w s (.object o) →
    ((s.entries o).keys.Nodup → (f (s.entries o)).keys.Nodup) →
    (∀ entry ∈ f (s.entries o), entry.2.Within (Refers w s)) →
    Sound w (s.modifyEntries o f) ∧ Grows w E s (s.modifyEntries o f)
  /-- A call: its body runs in a new scope inside the one of the closure, and for the caller the
  store has changed in a way that is no scope's own. -/
  call : ∀ {w s c bindings}, Sound w s → Refers w s (.closure c) →
    (∀ entry ∈ bindings, entry.2.value.Within (Refers w s)) →
    (∀ entry ∈ bindings, Shows w entry.2.isPublic) →
    let made := s.newScope ⟨bindings, some c.scope⟩
    Makes w made.1 (.call c) →
    Sound w made.2 ∧ Runs w made.2 made.1 c.definition.body ∧
      ∀ E s', Grows w made.1 made.2 s' → Grows w E s s'
  /-- An import: the module runs in a new root scope, and what it has bound there is handed on. -/
  load : ∀ {w s}, Imports w → Sound w s → ∃ inner,
    let made := s.newRoot
    Sound inner made.2 ∧
      (∀ source root, Makes w made.1 (.module source) → Node.ofSource source = .ok root →
        Runs inner made.2 made.1 root) ∧
      ∀ s', Sound inner s' → Grows inner made.1 made.2 s' →
        Sound w s' ∧ (∀ E, Grows w E s s') ∧
          ∀ entry ∈ s'.bindings made.1, entry.2.value.Within (Refers w s')

namespace Discipline

variable {W : Type} (D : Discipline W)

/-- The value refers to what values of the run may refer to. -/
def Carries (w : W) (s : Store) (v : Value) : Prop :=
  v.Within (D.Refers w s)

/-- The error and the calls it has left are at places that errors of the run are at. -/
def Locates (w : W) (e : Diagnostic) : Prop :=
  D.Points w e.span ∧ ∀ frame ∈ e.trace, D.Points w frame.span

/-- The signals that may end a step with `depth` loops around it. -/
def Permits (w : W) (depth : Nat) (s : Store) : Signal → Prop
  | .error e => D.Locates w e
  | .returned v => D.Carries w s v
  | .broke | .continued => 0 < depth
  | .unreachable => False
  | .exhausted => True

/-- The second state may come up when a step in scope `E` was started in the first one. -/
structure Later (w : W) (E : ScopeId) (m m' : Machine) : Prop where
  sound : D.Sound w m'.store
  grows : D.Grows w E m.store m'.store
  place : m.SamePlace m'

/-- The outcome is a value that satisfies `T` or a failure that satisfies `X`. -/
def Ends {ε α : Type} (X : Store → ε → Prop) (T : Store → α → Prop) (s : Store) :
    Except ε α → Prop
  | .ok a => T s a
  | .error e => X s e

/-- Run from `m`, the step keeps the discipline and ends as `X` and `T` say. -/
def Keeps {ε α : Type} (w : W) (E : ScopeId) (X : Store → ε → Prop) (T : Store → α → Prop)
    (m : Machine) (step : ExceptT ε (StateM Machine) α) : Prop :=
  D.Sound w m.store →
    D.Later w E m (step.run m).2 ∧ Ends X T (step.run m).2.store (step.run m).1

/-- Run from `m`, the step of evaluation keeps the discipline. -/
def Evaluates {α : Type} (w : W) (E : ScopeId) (T : Store → α → Prop) (m : Machine)
    (step : Eval α) : Prop :=
  D.Keeps w E (D.Permits w m.loopDepth) T m step

/-- Run from `m`, the action keeps the discipline. -/
def Performs {α : Type} (w : W) (E : ScopeId) (T : Store → α → Prop) (m : Machine)
    (action : Action α) : Prop :=
  D.Keeps w E (fun _ _ => True) T m action

/-- Evaluating nodes keeps the discipline. -/
def Visits (visit : Visit) : Prop :=
  ∀ {w : W} {E : ScopeId} {m : Machine} {node : Node}, D.Runs w m.store E node →
    D.Evaluates w E (D.Carries w) m (visit E node)

variable {D} {w : W} {E : ScopeId} {m m' m'' : Machine}

theorem locates_fault {fault : Fault} {span : Span} (h : D.Points w span) :
    D.Locates w (fault.locate span) :=
  ⟨h, fun _ hframe => absurd hframe (Array.not_mem_empty _)⟩

theorem Locates.leaving {e : Diagnostic} (h : D.Locates w e) {context : String} {span : Span}
    (hspan : D.Points w span) : D.Locates w (e.leaving context span) := by
  refine ⟨h.1, fun frame hframe => ?_⟩
  rcases Array.mem_push.1 hframe with hframe | rfl
  · exact h.2 frame hframe
  · exact hspan

/-! ## What is known later -/

namespace Later

theorem refl (h : D.Sound w m.store) : D.Later w E m m :=
  ⟨h, D.grows_refl w E _, .refl m⟩

theorem trans (h : D.Later w E m m') (h' : D.Later w E m' m'') : D.Later w E m m'' :=
  ⟨h'.sound, D.grows_trans h.grows h'.grows, h.place.trans h'.place⟩

theorem carries {v : Value} (h : D.Later w E m m') (hv : D.Carries w m.store v) :
    D.Carries w m'.store v :=
  hv.mono fun _ => D.refers_mono h.grows

theorem runs {E' : ScopeId} {node : Node} (h : D.Later w E m m')
    (hn : D.Runs w m.store E' node) : D.Runs w m'.store E' node :=
  D.runs_mono h.grows hn

end Later

/-! ## Steps -/

namespace Keeps

variable {ε α β : Type} {X Y : Store → ε → Prop} {T U : Store → α → Prop}
  {V : Store → β → Prop} {step : ExceptT ε (StateM Machine) α}
  {k : α → ExceptT ε (StateM Machine) β}

theorem pure {a : α} (h : T m.store a) : D.Keeps w E X T m (pure a) :=
  fun hs => ⟨.refl hs, h⟩

theorem throw {e : ε} (h : X m.store e) : D.Keeps w E X T m (throw e) :=
  fun hs => ⟨.refl hs, h⟩

/-- A step that changes the store and nothing else. -/
theorem of_store {a : α} {s : Store} (hrun : step.run m = (.ok a, { m with store := s }))
    (h : D.Sound w m.store → D.Sound w s ∧ D.Grows w E m.store s ∧ T s a) :
    D.Keeps w E X T m step := by
  intro hs
  obtain ⟨hsound, hgrows, ht⟩ := h hs
  rw [hrun]
  exact ⟨⟨hsound, hgrows, rfl, rfl, rfl⟩, ht⟩

theorem weaken (h : D.Keeps w E X T m step) (hX : ∀ s e, X s e → Y s e)
    (hT : ∀ s a, T s a → U s a) : D.Keeps w E Y U m step := by
  intro hs
  obtain ⟨hlater, hends⟩ := h hs
  refine ⟨hlater, ?_⟩
  cases hr : (step.run m).1 with
  | ok a => rw [hr] at hends; exact hT _ _ hends
  | error e => rw [hr] at hends; exact hX _ _ hends

/-- **Sequences.**  The second step starts in a later state, with what the first one gave. -/
theorem bind (h : D.Keeps w E X T m step)
    (hk : ∀ a m', D.Later w E m m' → T m'.store a → D.Keeps w E X V m' (k a)) :
    D.Keeps w E X V m (step >>= k) := by
  intro hs
  obtain ⟨hlater, hends⟩ := h hs
  rcases hrun : step.run m with ⟨_ | a, m'⟩
  · rw [hrun] at hlater hends
    rw [Step.run_bind_error hrun]
    exact ⟨hlater, hends⟩
  · rw [hrun] at hlater hends
    rw [Step.run_bind_ok hrun]
    obtain ⟨hlater', hends'⟩ := hk a m' hlater hends hlater.sound
    exact ⟨hlater.trans hlater', hends'⟩

/-- An action that keeps the discipline still does when its faults are pinned to a place. -/
theorem located {action : Action α} {span : Span} {X : Store → Signal → Prop}
    (h : D.Performs w E T m action) (hspan : D.Points w span)
    (hX : ∀ s e, D.Locates w e → X s (.error e)) :
    D.Keeps w E X T m (Eval.located span action) := by
  intro hs
  obtain ⟨hlater, hends⟩ := h hs
  rw [Eval.run_located]
  refine ⟨hlater, ?_⟩
  cases hr : (action.run m).1 with
  | ok a => rw [hr] at hends; exact hends
  | error fault => exact hX _ _ (locates_fault hspan)

/-- Reading the state and going on from what was read. -/
theorem bind_get {k : Machine → ExceptT ε (StateM Machine) β}
    (h : D.Sound w m.store → D.Keeps w E X V m (k m)) : D.Keeps w E X V m (get >>= k) := by
  intro hs
  rw [Step.run_bind_ok (Step.run_get m)]
  exact h hs hs

end Keeps

namespace Evaluates

variable {α β : Type} {T U : Store → α → Prop} {V : Store → β → Prop} {step : Eval α}
  {k : α → Eval β}

theorem pure {a : α} (h : T m.store a) : D.Evaluates w E T m (pure a) := Keeps.pure h

theorem raise {fault : Fault} {span : Span} (h : D.Points w span) :
    D.Evaluates w E T m (Eval.raise fault span) :=
  Keeps.throw (locates_fault h)

theorem throw_exhausted : D.Evaluates w E T m (throw .exhausted) :=
  Keeps.throw trivial

theorem weaken (h : D.Evaluates w E T m step) (hT : ∀ s a, T s a → U s a) :
    D.Evaluates w E U m step :=
  Keeps.weaken h (fun _ _ => id) hT

/-- Sequences.  A later state has as many loops around it, so it permits the same signals. -/
theorem bind (h : D.Evaluates w E T m step)
    (hk : ∀ a m', D.Later w E m m' → T m'.store a → D.Evaluates w E V m' (k a)) :
    D.Evaluates w E V m (step >>= k) := by
  refine Keeps.bind h fun a m' hlater ha => ?_
  have hnext := hk a m' hlater ha
  rwa [Evaluates, hlater.place.loopDepth] at hnext

theorem discard (h : D.Evaluates w E T m step) :
    D.Evaluates w E (fun _ _ => True) m (Functor.discard step) := by
  rw [Step.discard_eq_bind]
  exact Keeps.bind h fun _ _ _ _ => Keeps.pure trivial

theorem bind_get {k : Machine → Eval β} (h : D.Sound w m.store → D.Evaluates w E V m (k m)) :
    D.Evaluates w E V m (get >>= k) :=
  Keeps.bind_get h

theorem orRaise {value : Option α} {fault : Fault} {span : Span} (hspan : D.Points w span)
    (h : ∀ a, value = some a → T m.store a) :
    D.Evaluates w E T m (Eval.orRaise value fault span) := by
  cases value with
  | none => exact raise hspan
  | some a => exact pure (h a rfl)

theorem located {action : Action α} {span : Span} (hspan : D.Points w span)
    (h : D.Performs w E T m action) : D.Evaluates w E T m (Eval.located span action) :=
  Keeps.located h hspan fun _ _ => id

end Evaluates

end Discipline

end BpScript
