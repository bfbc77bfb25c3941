import Mathlib.Data.Bool.Count
import BpScript.Proofs.Chains
import BpScript.Proofs.Events
import BpScript.Proofs.Trust

/-!
# Arguments and parameters

A call counts the required parameters up to the first optional one.  This is the number of all
required parameters because none stands behind an optional one: the parser makes sure of it for
functions of scripts, at every depth, and the built-in functions are declared so.  From there the
arguments follow: they are as many as there are required parameters or more, and only optional
parameters are left to null.

In the body of a function a parameter goes by its name, and nobody makes sure that the names differ.
The last parameter of a name has it, so a required one keeps its argument unless a later one is
called the same (`repeated_name_hides_argument`).

* `Callable.Ordered`, `Ordered.optionals_eq` — required parameters first, then optional ones.
* `Callable.BindsByArity` — what a call does with any arguments.
* `Closure.Entered` — the state in which a call comes to the body of a function.
* `Callable.CallsByArity`, `BindsByArity.calls` — what a call does in any state.
* `Callable.Defined`, `Store.Defined` — functions that a source defines or that are built in.
* `Discipline.definitions` — a run comes to no others.
* **`calls_bind_by_arity`** — all functions that can occur, in all runs.
-/

namespace BpScript

open Store Discipline

/-! ## Calls -/

/-- Flags that never go from true to false: first all that are false, then all that are true. -/
theorem eq_replicate_append_replicate : ∀ {flags : List Bool},
    (flags.Pairwise fun p q => p = true → q = true) →
      flags = List.replicate (flags.count false) false ++ List.replicate (flags.count true) true
  | [], _ => rfl
  | false :: rest, h => by
    have ih := eq_replicate_append_replicate (List.pairwise_cons.1 h).2
    rw [List.count_cons_self, List.count_cons_of_ne (by decide), List.replicate_succ,
      List.cons_append, ← ih]
  | true :: rest, h => by
    have hrest : rest = List.replicate rest.length true :=
      List.eq_replicate_of_mem fun q hq => (List.pairwise_cons.1 h).1 q hq rfl
    rw [hrest]
    simp [List.count_replicate, List.replicate_succ]

namespace Callable

/-- The number of the parameters that a call has to give, wherever they stand. -/
def required (f : Callable) : Nat :=
  f.optionals.count false

/-- No required parameter stands behind an optional one. -/
def Ordered (f : Callable) : Prop :=
  f.optionals.Pairwise fun p q => p = true → q = true

/-- What a call does with its arguments.  It fails if they are too many or too few, and says by how
many.  Otherwise it binds them in order, and null to the parameters that are left; a parameter that
is required is bound to an argument, and those that are left are optional. -/
structure BindsByArity (f : Callable) : Prop where
  error_iff : ∀ (args : List Value) (fault : Fault), bindArgs f args = .error fault ↔
    (f.arity < args.length ∧ fault = .tooManyArguments f.name (args.length - f.arity)) ∨
      (args.length < f.required ∧ fault = .tooFewArguments f.name (f.required - args.length))
  ok_iff : ∀ args values : List Value, bindArgs f args = .ok values ↔
    f.required ≤ args.length ∧ args.length ≤ f.arity ∧
      values = args ++ List.replicate (f.arity - args.length) .null
  length_eq : ∀ {args values : List Value}, bindArgs f args = .ok values →
    values.length = f.arity
  passed : ∀ {args values : List Value}, bindArgs f args = .ok values → ∀ {i : Nat},
    f.optionals[i]? = some false → ∃ v, args[i]? = some v ∧ values[i]? = some v
  padded : ∀ {args values : List Value}, bindArgs f args = .ok values → ∀ {i : Nat},
    args.length ≤ i → i < f.arity → f.optionals[i]? = some true ∧ values[i]? = some .null

theorem required_le_arity (f : Callable) : f.required ≤ f.arity :=
  List.count_le_length

namespace Ordered

variable {f : Callable} (h : f.Ordered)

include h

theorem optionals_eq : f.optionals =
    List.replicate f.required false ++ List.replicate (f.arity - f.required) true := by
  have hcount : f.arity - f.required = f.optionals.count true := by
    have htotal := List.count_false_add_count_true f.optionals
    rw [arity, required]
    omega
  rw [hcount]
  exact eq_replicate_append_replicate h

/-- The required parameters are those that a call counts. -/
theorem length_takeWhile : (f.optionals.takeWhile (!·)).length = f.required := by
  rw [h.optionals_eq, List.takeWhile_append_of_pos (by simp), List.takeWhile_replicate]
  simp

theorem getElem?_optionals_of_required {i : Nat} (hi : f.optionals[i]? = some false) :
    i < f.required := by
  by_contra hle
  rw [h.optionals_eq, List.getElem?_append_right (by simpa using hle),
    List.getElem?_replicate] at hi
  split at hi <;> cases hi

theorem getElem?_optionals_of_le {i : Nat} (hle : f.required ≤ i) (hi : i < f.arity) :
    f.optionals[i]? = some true := by
  rw [h.optionals_eq, List.getElem?_append_right (by simpa using hle), List.getElem?_replicate,
    List.length_replicate, if_pos (by omega)]

theorem bindArgs_eq (args : List Value) : bindArgs f args =
    if f.arity < args.length then .error (.tooManyArguments f.name (args.length - f.arity))
    else if args.length < f.required then
      .error (.tooFewArguments f.name (f.required - args.length))
    else .ok (args ++ List.replicate (f.arity - args.length) .null) := by
  simp only [bindArgs, h.length_takeWhile]

theorem bindArgs_eq_error_iff (args : List Value) (fault : Fault) :
    bindArgs f args = .error fault ↔
      (f.arity < args.length ∧ fault = .tooManyArguments f.name (args.length - f.arity)) ∨
        (args.length < f.required ∧
          fault = .tooFewArguments f.name (f.required - args.length)) := by
  have hle := f.required_le_arity
  rw [h.bindArgs_eq]
  split
  · next hmany =>
    have hfew : ¬args.length < f.required := by omega
    simp [hmany, hfew, eq_comm (a := fault)]
  · next hmany =>
    split
    · next hfew => simp [hmany, hfew, eq_comm (a := fault)]
    · next hfew => simp [hmany, hfew]

theorem bindArgs_eq_ok_iff (args values : List Value) : bindArgs f args = .ok values ↔
    f.required ≤ args.length ∧ args.length ≤ f.arity ∧
      values = args ++ List.replicate (f.arity - args.length) .null := by
  rw [h.bindArgs_eq]
  split
  · simp only [reduceCtorEq, false_iff]
    omega
  · split
    · simp only [reduceCtorEq, false_iff]
      omega
    · rw [Except.ok.injEq]
      constructor
      · rintro rfl
        exact ⟨by omega, by omega, rfl⟩
      · rintro ⟨-, -, rfl⟩
        rfl

/-- **Ordered parameters are bound by arity.** -/
theorem bindsByArity : f.BindsByArity := by
  refine ⟨h.bindArgs_eq_error_iff, h.bindArgs_eq_ok_iff, fun hbind => ?_, fun hbind i hi => ?_,
    fun hbind i hleft hi => ?_⟩
  · obtain ⟨-, hmax, rfl⟩ := (h.bindArgs_eq_ok_iff _ _).1 hbind
    rw [List.length_append, List.length_replicate]
    omega
  · obtain ⟨hmin, -, rfl⟩ := (h.bindArgs_eq_ok_iff _ _).1 hbind
    have hpassed := Nat.lt_of_lt_of_le (h.getElem?_optionals_of_required hi) hmin
    exact ⟨_, List.getElem?_eq_getElem hpassed,
      by rw [List.getElem?_append_left hpassed, List.getElem?_eq_getElem hpassed]⟩
  · obtain ⟨hmin, -, rfl⟩ := (h.bindArgs_eq_ok_iff _ _).1 hbind
    refine ⟨h.getElem?_optionals_of_le (Nat.le_trans hmin hleft) hi, ?_⟩
    rw [List.getElem?_append_right hleft, List.getElem?_replicate, if_pos (by omega)]

end Ordered

end Callable

/-! ## Names -/

/-- The parameter stands at this place, and no later one takes its name. -/
def Function.Names (f : Function) (i : Nat) (p : Param) : Prop :=
  f.params[i]? = some p ∧ ∀ q ∈ f.params.drop (i + 1), q.ident.name ≠ p.ident.name

/-- The scope of a call, as it is made: values are bound to the names of the parameters, one after
the other. -/
def Closure.callScope (c : Closure) (values : List Value) : Scope where
  bindings := .ofEntries
    ((c.definition.params.map (·.ident.name)).zip (values.map fun v => ⟨v, false⟩))
  parent := some c.scope

/-- A value stays with a name that no later parameter takes. -/
theorem Closure.get?_callScope {c : Closure} {values : List Value} {i : Nat} {p : Param}
    (h : c.definition.Names i p) {v : Value} (hv : values[i]? = some v) :
    (c.callScope values).bindings.get? p.ident.name = some ⟨v, false⟩ := by
  obtain ⟨hp, hlast⟩ := h
  refine Table.get?_ofEntries (i := i) ?_ fun hlater => ?_
  · rw [List.getElem?_zip_eq_some, List.getElem?_map, hp, List.getElem?_map, hv]
    exact ⟨rfl, rfl⟩
  · obtain ⟨entry, hentry, hname⟩ := List.mem_map.1 hlater
    rw [List.zip, List.drop_zipWith] at hentry
    have hkey := (List.of_mem_zip hentry).1
    rw [← List.map_drop, hname] at hkey
    obtain ⟨q, hq, hsame⟩ := List.mem_map.1 hkey
    exact hlast q hq hsame

/-! ## What calls do -/

/-- The state `inside`, in which a call of the closure from `m` comes to the body.  There is one
more scope, in that of the closure, and it has the names of the parameters.  Under the name of a
required parameter stands the argument that was passed for it; under that of an optional one its
argument, or null if there is none.  Of parameters with one name this holds of the last. -/
structure Closure.Entered (c : Closure) (args : List Value) (m : Machine) (scope : ScopeId)
    (inside : Machine) : Prop where
  state_eq : inside = { m.entering c.definition.name with store := inside.store }
  allocates : Allocates m.store (.scope scope) inside.store
  parent?_eq : inside.store.parent? scope = some c.scope
  named : ∀ entry ∈ inside.store.bindings scope,
    ∃ p ∈ c.definition.params, p.ident.name = entry.1
  passed : ∀ {i : Nat} {p : Param}, c.definition.Names i p → p.optional = false →
    ∃ v, args[i]? = some v ∧
      (inside.store.bindings scope).get? p.ident.name = some ⟨v, false⟩
  optional : ∀ {i : Nat} {p : Param}, c.definition.Names i p → p.optional = true →
    (inside.store.bindings scope).get? p.ident.name = some ⟨args[i]?.getD .null, false⟩

/-- How a function of a script ends, from how its body ended. -/
def Closure.outcome (c : Closure) : Except Signal Value → Except Signal Value
  | .ok v => .ok (if c.definition.autoReturn then v else .null)
  | .error (.returned v) => .ok v
  | .error signal => .error signal

/-- How a call from `m` ends, from how the function ended: an error takes along where the call was
made. -/
def Machine.callOutcome (m : Machine) (span : Span) : Except Signal Value → Except Signal Value
  | .error (.error e) => .error (.error (e.leaving (m.contexts.back?.getD "") span))
  | outcome => outcome

/-- What a call of the function does in the state `m`.  If it refuses the arguments, or if too many
calls are in progress, it changes nothing.  Otherwise it runs the function on the values that it has
bound the parameters to, and does nothing else. -/
structure Callable.CallsByArity (f : Callable) (visit : Visit) (args : List Value) (span : Span)
    (m : Machine) : Prop where
  refused : ∀ fault, bindArgs f args = .error fault →
    (Construct.invoke visit f args span).run m = (.error (.error (fault.locate span)), m)
  tooDeep : ∀ values, bindArgs f args = .ok values → maxCallDepth < m.contexts.size →
    (Construct.invoke visit f args span).run m =
      (.error (.error (Fault.locate (.tooDeep maxCallDepth) span)), m)
  closure : ∀ c values, f = .closure c → bindArgs f args = .ok values →
    m.contexts.size ≤ maxCallDepth → ∃ scope inside, c.Entered args m scope inside ∧
      let body := (visit scope c.definition.body).run inside
      (Construct.invoke visit f args span).run m =
        (m.callOutcome span (c.outcome body.1), body.2.leaving m.loopDepth)
  native : ∀ n values, f = .native n → bindArgs f args = .ok values →
    m.contexts.size ≤ maxCallDepth →
      let body := (Eval.located span (n.call values)).run (m.entering n.name)
      (Construct.invoke visit f args span).run m =
        (m.callOutcome span body.1, body.2.leaving m.loopDepth)

namespace Construct

variable {visit : Visit} {f : Callable} {args values : List Value} {span : Span} {m : Machine}

theorem run_invoke_refused {fault : Fault} (h : bindArgs f args = .error fault) :
    (invoke visit f args span).run m = (.error (.error (fault.locate span)), m) := by
  unfold invoke
  rw [h]
  rfl

theorem run_invoke_tooDeep (h : bindArgs f args = .ok values)
    (hdeep : maxCallDepth < m.contexts.size) : (invoke visit f args span).run m =
      (.error (.error (Fault.locate (.tooDeep maxCallDepth) span)), m) := by
  unfold invoke
  simp only [h]
  rw [Step.run_bind_ok (Step.run_get m), if_pos hdeep]
  rfl

/-- A call for which there is room runs the function inside. -/
theorem run_invoke (h : bindArgs f args = .ok values) (hroom : m.contexts.size ≤ maxCallDepth) :
    let r := (apply visit f values span).run (m.entering f.name)
    (invoke visit f args span).run m = (m.callOutcome span r.1, r.2.leaving m.loopDepth) := by
  intro r
  unfold invoke
  simp only [h]
  rw [Step.run_bind_ok (Step.run_get m), if_neg (Nat.not_lt.2 hroom),
    Step.run_bind_ok (Step.run_get m), Step.run_bind_ok (Eval.run_inContext _ _ m)]
  show _ = (m.callOutcome span r.1, _)
  rcases r.1 with (_ | _ | _ | _ | _ | _) | _ <;> rfl

/-- A function of a script runs its body in a new scope. -/
theorem run_runClosure (c : Closure) :
    let made := m.store.newScope (c.callScope values)
    let body := (visit made.1 c.definition.body).run { m with store := made.2 }
    (runClosure visit c values).run m = (c.outcome body.1, body.2) := by
  intro made body
  have hscope : (Eval.newScope (c.callScope values)).run m =
      (.ok made.1, { m with store := made.2 }) := rfl
  show (Eval.newScope (c.callScope values) >>= _).run m = _
  rw [Step.run_bind_ok hscope, Step.run_bind_ok (Eval.run_observe _ _)]
  show _ = (c.outcome body.1, _)
  rcases body.1 with (_ | _ | _ | _ | _ | _) | _ <;> rfl

end Construct

namespace Callable.BindsByArity

/-- The scope that a call makes has the values that the parameters were bound to. -/
theorem entered {c : Closure} (h : (Callable.closure c).BindsByArity) {args values : List Value}
    (hbind : bindArgs (.closure c) args = .ok values) (m : Machine) :
    let made := m.store.newScope (c.callScope values)
    c.Entered args m made.1 { m.entering c.definition.name with store := made.2 } := by
  intro made
  have hflag : ∀ {i : Nat} {p : Param}, c.definition.params[i]? = some p →
      (Callable.closure c).optionals[i]? = some p.optional := fun hp => by
    rw [optionals, List.getElem?_map, hp]
    rfl
  refine ⟨rfl, allocates_newScope _, parent?_newScope _, fun entry hentry => ?_,
    fun {i p} hnames hrequired => ?_, fun {i p} hnames _ => ?_⟩
  · rw [bindings_newScope] at hentry
    have hkey := (List.of_mem_zip (Table.mem_of_mem_ofEntries hentry)).1
    obtain ⟨p, hp, hname⟩ := List.mem_map.1 hkey
    exact ⟨p, hp, hname⟩
  · obtain ⟨v, hpassed, hv⟩ := h.passed hbind (hrequired ▸ hflag hnames.1)
    refine ⟨v, hpassed, ?_⟩
    rw [bindings_newScope]
    exact Closure.get?_callScope hnames hv
  · rw [bindings_newScope]
    refine Closure.get?_callScope hnames ?_
    obtain ⟨-, hmax, rfl⟩ := (h.ok_iff _ _).1 hbind
    rcases Nat.lt_or_ge i args.length with hi | hi
    · rw [List.getElem?_append_left hi, List.getElem?_eq_getElem hi]
      rfl
    · have hlt : i < (Callable.closure c).arity := (List.getElem?_eq_some_iff.1 (hflag hnames.1)).1
      rw [(h.padded hbind hi hlt).2, List.getElem?_eq_none hi]
      rfl

/-- **Calls of functions that bind by arity.** -/
theorem calls {f : Callable} (h : f.BindsByArity) (visit : Visit) (args : List Value) (span : Span)
    (m : Machine) : f.CallsByArity visit args span m := by
  refine ⟨fun _ => Construct.run_invoke_refused, fun _ => Construct.run_invoke_tooDeep,
    fun c values hf hbind hroom => ?_, fun n values hf hbind hroom => ?_⟩
  · subst hf
    refine ⟨_, _, h.entered hbind m, ?_⟩
    intro body
    rw [Construct.run_invoke hbind hroom, Construct.apply]
    simp only [Construct.run_runClosure]
    rfl
  · subst hf
    exact Construct.run_invoke hbind hroom

end Callable.BindsByArity

/-! ## Functions that can occur -/

/-- Built-in functions are declared with their required parameters first. -/
theorem Native.ordered (n : Native) : (Callable.native n).Ordered := by
  cases n with
  | global g =>
    show (g.params.map (·.optional)).Pairwise _
    cases g <;> decide
  | text method _ =>
    show (method.params.map (·.optional)).Pairwise _
    cases method <;> decide
  | list method _ =>
    show (method.params.map (·.optional)).Pairwise _
    cases method <;> decide
  | object method _ =>
    show (method.params.map (·.optional)).Pairwise _
    cases method <;> decide
  | function _ _ => exact .nil

/-- A source defines the function, in whatever part of its tree, or it is built in. -/
def Callable.Defined : Callable → Prop
  | .closure c => ∃ node : Node, node.IsRead ∧ node.form = .function c.definition
  | .native _ => True

theorem Callable.Defined.ordered {f : Callable} (h : f.Defined) : f.Ordered := by
  cases f with
  | closure c =>
    obtain ⟨node, hread, hform⟩ := h
    have hregular : (Form.function c.definition).Regular := hform ▸ hread.regular
    exact List.pairwise_map.2 hregular
  | native n => exact n.ordered

/-- What is referred to is defined, if it is a function of a script. -/
def Ref.Defined : Ref → Prop
  | .closure c => (Callable.closure c).Defined
  | _ => True

/-- All functions in the store are defined. -/
def Store.Defined (s : Store) : Prop :=
  ∀ v, s.Stored v → v.Within Ref.Defined

theorem Value.Within.defined {f : Callable} (h : (Value.callable f).Within Ref.Defined) :
    f.Defined := by
  cases f with
  | closure c => exact Value.within_closure.1 h
  | native n => trivial

namespace Store.Defined

variable {s : Store}

theorem newRoot (h : s.Defined) : s.newRoot.2.Defined :=
  (adds_newRoot.imp fun _ => Value.within_of_ne_closure (fun _ => trivial) fun _ =>
    trivial).forall_stored h

/-- The store of a fresh session holds no functions of scripts. -/
theorem start (console : Console) (workspace : Workspace) :
    (Session.start console workspace).machine.store.Defined :=
  newRoot fun _ hv => absurd hv not_stored_empty

end Store.Defined

theorem Node.IsRead.inside {node child : Node} (h : node.IsRead)
    (hchild : .node child ∈ node.form.contents) : child.IsRead := by
  obtain ⟨source, root, hroot, hnode⟩ := h
  exact ⟨source, root, hroot, hnode.inside hchild⟩

/-- Nodes that are evaluated were read, and functions that they come to are defined. -/
def Discipline.definitions : Discipline Unit where
  Sound _ s := s.Defined
  Refers _ _ r := r.Defined
  Runs _ _ _ node := node.IsRead
  Imports _ := True
  Grows _ _ _ _ := True
  grows_refl _ _ _ := trivial
  grows_trans _ _ := trivial
  refers_mono _ h := h
  runs_mono _ h := h
  runs_part h hpart := h.inside (Form.mem_contents_of_mem_parts hpart)
  imports_of_runs _ _ := trivial
  refers_closure h hform := ⟨_, h, hform⟩
  items_within hs _ hv := hs _ (.item hv)
  entries_within hs _ hentry := hs _ (.entry hentry)
  lookup_within hs _ hlookup := hs _ (stored_of_lookupWithin hlookup)
  newList _ hs hitems := ⟨(adds_newList hitems).forall_stored hs, trivial, trivial⟩
  newObject _ hs _ hentries := ⟨(adds_newObject hentries).forall_stored hs, trivial, trivial⟩
  bind hs _ hbinding _ := ⟨(adds_bind hbinding).forall_stored hs, trivial⟩
  modifyItems _ hs _ hitems := ⟨(adds_modifyItems hitems).forall_stored hs, trivial⟩
  modifyEntries _ hs _ _ hentries := ⟨(adds_modifyEntries hentries).forall_stored hs, trivial⟩
  call hs hc hbindings _ _ := by
    obtain ⟨node, hread, hform⟩ := hc
    exact ⟨(adds_newScope hbindings).forall_stored hs,
      hread.inside (hform ▸ Form.body_mem_contents _), fun _ _ _ => trivial⟩
  load _ hs :=
    ⟨(), hs.newRoot, fun source root _ hroot => ⟨source, root, hroot, .self⟩,
      fun _ hs' _ => ⟨hs', fun _ => trivial, fun _ hentry => hs' _ (.binding hentry)⟩⟩

theorem Discipline.definitions_visits (bound : Nat) :
    Discipline.definitions.Visits (Node.evalWithin bound) :=
  Node.evalWithin_keeps _ (fun _ _ _ => trivial) bound

/-! ## Runs -/

/-- Asks that functions are bound by arity, if a node that is evaluated has them for its value. -/
def Machine.GivesByArity (m : Machine) : Event → Prop
  | .node E node => ∀ (bound : Nat) (f : Callable),
    ((Node.evalWithin bound E node).run m).1 = .ok (.callable f) → f.BindsByArity
  | .made _ _ => True

section

variable {m : Machine} {bound : Nat} {scope : ScopeId} {root : Node}

/-- A node that was read gives functions that are bound by arity. -/
theorem Node.IsRead.givesByArity {node : Node} (h : node.IsRead) (hs : m.store.Defined) :
    m.GivesByArity (.node scope node) := by
  intro bound f hf
  have hruns : Discipline.definitions.Runs () m.store scope node := h
  obtain ⟨-, hends⟩ := definitions_visits bound hruns hs
  rw [hf] at hends
  exact (Value.Within.defined hends).ordered.bindsByArity

theorem Machine.meets_givesByArity (hdepth : m.loopDepth = 0) (hs : m.store.Defined)
    (h : root.IsRead) : m.Meets Machine.GivesByArity bound scope root :=
  Machine.meets_of_open (D := .definitions) (w := ()) (fun _ _ _ => trivial)
    (fun hs h => h.givesByArity hs) trivial hdepth hs h

theorem Machine.runWithin_defined (hdepth : m.loopDepth = 0) (hs : m.store.Defined)
    (source : Source) : (m.runWithin bound scope source).2.store.Defined := by
  refine m.runWithin_state (P := fun m => m.store.Defined) hs fun root hroot => ?_
  have hruns : Discipline.definitions.Runs () m.store scope root := ⟨source, root, hroot, .self⟩
  exact (Construct.program_finishes (definitions_visits bound) hdepth hruns hs).1.sound

end

/-! ## All calls -/

/-- **Calls bind by arity.**  A function that a source defines, at whatever depth, or that is built
in binds any arguments by arity, and a call of it does as this says: it fails and changes nothing,
or it runs the function on what the parameters are bound to.  So the body of a function finds a
required parameter bound to the argument that was passed for it, unless a later parameter takes its
name.  There are no other functions: in every run, at every point, all functions that a node has for
its value are bound by arity, and a run leaves such functions behind for the runs to come. -/
theorem calls_bind_by_arity :
    (∀ f : Callable, f.Defined → f.BindsByArity ∧
      ∀ (visit : Visit) (args : List Value) (span : Span) (m : Machine),
        f.CallsByArity visit args span m) ∧
    (∀ console workspace, (Session.start console workspace).machine.store.Defined) ∧
    (∀ m : Machine, m.Idle → m.store.Defined → ∀ (bound : Nat) (scope : ScopeId) (source : Source),
      (∀ root, Node.ofSource source = .ok root → m.Meets Machine.GivesByArity bound scope root) ∧
        (m.runWithin bound scope source).2.store.Defined) := by
  refine ⟨fun f hf => ⟨hf.ordered.bindsByArity, hf.ordered.bindsByArity.calls⟩,
    Store.Defined.start, fun m hidle hs bound scope source => ?_⟩
  obtain ⟨-, hdepth, -⟩ := hidle.place
  exact ⟨fun root hroot => Machine.meets_givesByArity hdepth hs ⟨source, root, hroot, .self⟩,
    Machine.runWithin_defined hdepth hs source⟩

namespace TwoParameters

/-! ## A function of two parameters -/

/-- `func f(a, b?) => a`, with any name in place of `b`. -/
def source (second : String) : Source :=
  ⟨"main", "func f(a, " ++ second ++ "?) => a"⟩

def span (second : String) (first last : Nat) : Span :=
  ⟨source second, ⟨0, first, first⟩, ⟨0, last, last⟩⟩

/-- The function as it is read, if the name is one letter. -/
def definition (second : String) : Function :=
  .mk (some ⟨"f", span second 5 6⟩)
    [⟨⟨"a", span second 7 8⟩, false⟩, ⟨⟨second, span second 10 11⟩, true⟩]
    (.mk (.access ⟨"a", span second 17 18⟩) (span second 17 18)) true false

def root (second : String) : Node :=
  .mk (.block [.mk (.function (definition second)) (span second 0 18)]) (span second 0 18)

def closure (second : String) : Closure :=
  ⟨definition second, ⟨0⟩⟩

def machine : Machine :=
  (Session.start default .memory).machine

theorem defined {second : String} (h : Node.ofSource (source second) = .ok (root second)) :
    (Callable.closure (closure second)).Defined :=
  ⟨_, ⟨source second, root second, h, .inside .self List.mem_cons_self⟩, rfl⟩

/-- One argument is enough, and it is what the body finds; three are one too many. -/
theorem optional_parameter_left_out :
    let f : Callable := .closure (closure "b")
    Node.ofSource (source "b") = .ok (root "b") ∧
    machine.Meets Machine.GivesByArity 9 ⟨0⟩ (root "b") ∧
    bindArgs f [.boolean true] = .ok [.boolean true, .null] ∧
    ((Construct.invoke (Node.evalWithin 1) f [.boolean true] default).run machine).1 =
      .ok (.boolean true) ∧
    (Construct.invoke (Node.evalWithin 1) f [.null, .null, .null] default).run machine =
      (.error (.error (Fault.locate (.tooManyArguments "f" 1) default)), machine) := by
  intro f
  obtain ⟨hcalls, hfresh, hruns⟩ := calls_bind_by_arity
  have hidle : machine.Idle := .host _ _ _ (.start default .memory)
  have hroot : Node.ofSource (source "b") = .ok (root "b") := by cbv
  obtain ⟨hbinds, hcall⟩ := hcalls f (defined hroot)
  have hbind : bindArgs f [.boolean true] = .ok [.boolean true, .null] :=
    (hbinds.ok_iff _ _).2 ⟨Nat.le_refl 1, Nat.le_succ 1, rfl⟩
  have hrefused : bindArgs f [.null, .null, .null] = .error (.tooManyArguments "f" 1) :=
    (hbinds.error_iff _ _).2 (.inl ⟨Nat.lt_succ_self 2, rfl⟩)
  refine ⟨hroot, (hruns machine hidle (hfresh _ _) 9 ⟨0⟩ (source "b")).1 _ hroot, hbind, ?_,
    (hcall _ _ _ machine).refused _ hrefused⟩
  obtain ⟨scope, inside, hentered, hrun⟩ :=
    (hcall (Node.evalWithin 1) _ default machine).closure _ _ rfl hbind (by decide)
  obtain ⟨v, hpassed, hbound⟩ :=
    hentered.passed (i := 0) (p := ⟨⟨"a", span "b" 7 8⟩, false⟩) ⟨rfl, by decide⟩ rfl
  cases hpassed
  have hlookup : inside.store.lookup scope "a" = some ⟨.boolean true, false⟩ := by
    rw [Store.lookup, lookupWithin_succ, hbound]
    rfl
  have hfound : (Eval.lookup scope ⟨"a", span "b" 17 18⟩).run inside =
      (.ok ⟨.boolean true, false⟩, inside) := by
    rw [Eval.lookup, Step.run_bind_ok (Step.run_get inside), hlookup]
    rfl
  have hbody : (Node.evalWithin 1 scope (closure "b").definition.body).run inside =
      (.ok (.boolean true), inside) :=
    Step.run_bind_ok hfound
  rw [hrun, hbody]
  rfl

/-- **A required parameter may lose its argument to its name.**  If the second parameter is called
like the first one, the body finds null, although the argument was passed. -/
theorem repeated_name_hides_argument :
    let f : Callable := .closure (closure "a")
    let r := (Construct.invoke (Node.evalWithin 1) f [.boolean true] default).run machine
    Node.ofSource (source "a") = .ok (root "a") ∧ f.Defined ∧
    (∃ p, (definition "a").params[0]? = some p ∧ p.ident.name = "a" ∧ p.optional = false) ∧
    bindArgs f [.boolean true] = .ok [.boolean true, .null] ∧
    r.1 = .ok .null ∧ (r.2.store.bindings ⟨1⟩).get? "a" = some ⟨.null, false⟩ := by
  have hroot : Node.ofSource (source "a") = .ok (root "a") := by cbv
  exact ⟨hroot, defined hroot, ⟨_, rfl, rfl, rfl⟩, rfl, rfl, rfl⟩

end TwoParameters

end BpScript
