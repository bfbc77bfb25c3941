import Mathlib.Order.Filter.AtTopBot.Basic
import BpScript.Proofs.Balance
import BpScript.Proofs.Watch

/-!
# Versions of the evaluator

An evaluator with a higher bound, or with a check at each point, is a version of the evaluator: it
runs the constructs as they are and differs only in how it goes on with the nodes inside.  Versions
are compared all at once, and from one state on.  They end alike, unless some *strict* ones among
them come to a point that should not be reached; these give up there for good, since no construct
takes the signal they give up with.

Errors are the one thing that versions may tell differently.  What is known of them is carried along
with the comparison, so that even a single version has something to say about its errors.

* `Eval.Plain` — steps that every version takes, and where their errors are.
* `Versions` — which versions are compared, along a filter, which of them are strict, and how their
  errors go together.
* `Versions.Agree` — the comparison.  Versions that agree also come back to the place they started
  from.
* `Agree.bind`, `Agree.observe_bind`, `Agree.iteration`, … — sequences and brackets.
* `Construct.list_agree`, … — one lemma for each construct, under the assumption that versions agree
  on the nodes inside.
* **`Node.evalFormBy_agree`** — any node.  Loops that only a bound can end are the exception: there
  the versions have to have one bound in common.
-/

namespace BpScript

open Filter

/-! ## Steps that every version takes -/

/-- The step keeps the place and does not depend on a bound.  Its errors are at places in `P`, and
have not left any call. -/
def Eval.Plain {α : Type} (P : Span → Prop) (step : Eval α) : Prop :=
  ∀ m : Machine, m.SamePlace (step.run m).2 ∧ (step.run m).1 ≠ .error .exhausted ∧
    ∀ e, (step.run m).1 = .error (.error e) → ∃ fault span, P span ∧ e = Fault.locate fault span

namespace Eval.Plain

variable {α β : Type} {P : Span → Prop} {step : Eval α} {k : α → Eval β}

theorem samePlace {m m' : Machine} {outcome : Except Signal α} (h : step.Plain P)
    (hrun : step.run m = (outcome, m')) : m.SamePlace m' := by
  have hplace := (h m).1
  rwa [hrun] at hplace

theorem pure {a : α} : Plain P (pure a) :=
  fun m => ⟨.refl m, nofun, nofun⟩

theorem raise {fault : Fault} {span : Span} (h : P span) :
    Plain P (Eval.raise fault span : Eval α) :=
  fun m => ⟨.refl m, nofun, fun _ he =>
    ⟨fault, span, h, Signal.error.inj (Except.error.inj he.symm)⟩⟩

theorem bind (h : step.Plain P) (hk : ∀ a, (k a).Plain P) : (step >>= k).Plain P := by
  intro m
  obtain ⟨hplace, hends, herror⟩ := h m
  rcases hrun : step.run m with ⟨signal | a, m'⟩
  · rw [hrun] at hplace hends herror
    rw [Step.run_bind_error hrun]
    exact ⟨hplace, fun hsignal => hends (congrArg Except.error (Except.error.inj hsignal)),
      fun e he => herror e (congrArg Except.error (Except.error.inj he))⟩
  · rw [hrun] at hplace
    rw [Step.run_bind_ok hrun]
    exact ⟨hplace.trans (hk a m').1, (hk a m').2⟩

theorem get : Plain P (get : Eval Machine) :=
  fun m => ⟨.refl m, nofun, nofun⟩

/-- A change of the store. -/
theorem modifyStore {f : Machine → α × Machine}
    (h : ∀ m : Machine, m.SamePlace (f m).2) : Plain P (modifyGet f : Eval α) :=
  fun m => ⟨h m, nofun, nofun⟩

theorem newList {items : Array Value} : (Eval.newList items).Plain P :=
  modifyStore fun _ => ⟨rfl, rfl, rfl⟩

theorem newObject {entries : Table String Value} : (Eval.newObject entries).Plain P :=
  modifyStore fun _ => ⟨rfl, rfl, rfl⟩

theorem newScope {scope : Scope} : (Eval.newScope scope).Plain P :=
  modifyStore fun _ => ⟨rfl, rfl, rfl⟩

theorem newRoot : Eval.newRoot.Plain P :=
  modifyStore fun _ => ⟨rfl, rfl, rfl⟩

theorem bindName {scope : ScopeId} {name : String} {v : Value} {isPublic : Bool} :
    (Eval.bind scope name v isPublic).Plain P :=
  modifyStore fun _ => ⟨rfl, rfl, rfl⟩

theorem orRaise {value : Option α} {fault : Fault} {span : Span} (h : P span) :
    (Eval.orRaise value fault span).Plain P := by
  cases value with
  | none => exact raise h
  | some a => exact pure

theorem lookup {scope : ScopeId} {name : Ident} (h : P name.span) :
    (Eval.lookup scope name).Plain P :=
  get.bind fun _ => orRaise h

/-- Operators and built-in functions keep the place, under every discipline. -/
theorem located {action : Action α} {span : Span} {T : Store → α → Prop} (hspan : P span)
    (h : ∀ m, Discipline.free.Performs () ⟨0⟩ T m action) :
    (Eval.located span action).Plain P := by
  intro m
  obtain ⟨hlater, -⟩ := h m trivial
  rw [Eval.run_located]
  refine ⟨hlater.place, ?_⟩
  cases (action.run m).1 with
  | ok a => exact ⟨nofun, nofun⟩
  | error fault =>
    exact ⟨nofun, fun _ he => ⟨fault, span, hspan, Signal.error.inj (Except.error.inj he.symm)⟩⟩

end Eval.Plain

/-! ## The comparison -/

/-- The same calls and imports are in progress. -/
structure Machine.SameStacks (m m' : Machine) : Prop where
  contexts : m'.contexts = m.contexts
  importing : m'.importing = m.importing

theorem Machine.SamePlace.stacks {m m' : Machine} (h : m.SamePlace m') : m.SameStacks m' :=
  ⟨h.contexts, h.importing⟩

theorem Machine.SameStacks.trans {m m' m'' : Machine} (h : m.SameStacks m')
    (h' : m'.SameStacks m'') : m.SameStacks m'' :=
  ⟨h'.contexts.trans h.contexts, h'.importing.trans h.importing⟩

/-- Versions of the evaluator. -/
structure Versions (ι : Type) where
  /-- The versions that are compared. -/
  most : Filter ι
  /-- Some of them may give up. -/
  strict : Set (Filter ι)
  strict_le : ∀ F ∈ strict, F ≤ most
  /-- Whether they may give up for lack of a bound. -/
  mayExhaust : Prop
  /-- The places that new errors are at. -/
  points : Span → Prop := fun _ => True
  /-- How the errors of the versions go together. -/
  errors : (ι → Diagnostic) → Prop := fun e => ∃ e₀, e = fun _ => e₀
  fresh : ∀ fault {span}, points span → errors fun _ => Fault.locate fault span := by
    exact fun _ _ _ => ⟨_, rfl⟩

namespace Versions

variable {ι α β : Type} (V : Versions ι)

/-- The versions tell their errors alike, wherever these are. -/
structure Uniform : Prop where
  points : ∀ span, V.points span
  errors : ∀ e, V.errors e ↔ ∃ e₀, e = fun _ => e₀

/-- Outcomes that go together: they are the same, or errors that go together. -/
inductive Alike : (ι → Except Signal α) → Prop where
  | value (a : α) : Alike fun _ => .ok a
  | error (e : ι → Diagnostic) : V.errors e → Alike fun i => .error (.error (e i))
  | signal (signal : Signal) : (∀ e, signal ≠ .error e) → (signal = .exhausted → V.mayExhaust) →
    Alike fun _ => .error signal

/-- Run from `m`, the versions of a step end alike and at the same place, unless some strict ones
come to a point that should not be reached. -/
def Agree (m : Machine) (steps : ι → Eval α) : Prop :=
  (∃ F ∈ V.strict, ∀ᶠ i in F, ((steps i).run m).1 = .error .unreachable) ∨
    ∃ (outcome : ι → Except Signal α) (m' : Machine), m.SamePlace m' ∧ V.Alike outcome ∧
      ∀ᶠ i in V.most, (steps i).run m = (outcome i, m')

/-- The versions agree on a node, in any scope and wherever the same calls and imports are in
progress. -/
def Visits (m : Machine) (visit : ι → Visit) (node : Node) : Prop :=
  V.points node.span ∧
    ∀ (scope : ScopeId) (m' : Machine), m.SameStacks m' → V.Agree m' fun i => visit i scope node

/-- The same versions, which may tell their errors in another way inside. -/
structure Hosts (V' : Versions ι) : Prop where
  most : V'.most = V.most
  strict : V'.strict = V.strict
  mayExhaust : V'.mayExhaust → V.mayExhaust

variable {V} {V' : Versions ι} {m m' : Machine} {steps : ι → Eval α} {k : ι → α → Eval β}

theorem Hosts.refl (V : Versions ι) : V.Hosts V := ⟨rfl, rfl, id⟩

theorem Uniform.leaving (h : V.Uniform) {e : ι → Diagnostic} {caller : String} {span : Span}
    (he : V.errors e) : V.errors fun i => (e i).leaving caller span := by
  obtain ⟨e₀, rfl⟩ := (h.errors e).1 he
  exact (h.errors _).2 ⟨e₀.leaving caller span, rfl⟩

theorem Uniform.exists_eq {outcome : ι → Except Signal α} (h : V.Uniform)
    (halike : V.Alike outcome) : ∃ r, outcome = fun _ => r := by
  cases halike with
  | value a => exact ⟨.ok a, rfl⟩
  | error e he =>
    obtain ⟨e₀, rfl⟩ := (h.errors e).1 he
    exact ⟨.error (.error e₀), rfl⟩
  | signal signal _ _ => exact ⟨.error signal, rfl⟩

theorem Visits.later {visit : ι → Visit} {node : Node} (h : V.Visits m visit node)
    (hm : m.SameStacks m') : V.Visits m' visit node :=
  ⟨h.1, fun scope _ hm' => h.2 scope _ (hm.trans hm')⟩

theorem Visits.here {visit : ι → Visit} {node : Node} (h : V.Visits m visit node)
    (scope : ScopeId) : V.Agree m fun i => visit i scope node :=
  h.2 scope m ⟨rfl, rfl⟩

/-- How a step that every version takes fails. -/
theorem Alike.of_plain {step : Eval α} {signal : Signal} (h : step.Plain V.points)
    (hrun : step.run m = (.error signal, m')) :
    V.Alike fun _ => (.error signal : Except Signal β) := by
  obtain ⟨-, hends, herror⟩ := h m
  rw [hrun] at hends herror
  by_cases he : ∃ e, signal = .error e
  · obtain ⟨e, rfl⟩ := he
    obtain ⟨fault, span, hspan, rfl⟩ := herror e rfl
    exact .error (fun _ => fault.locate span) (V.fresh fault hspan)
  · exact .signal signal (fun e hsignal => he ⟨e, hsignal⟩)
      fun hsignal => absurd (congrArg Except.error hsignal) hends

namespace Agree

theorem ends {outcome : ι → Except Signal α} (h : V.Alike outcome)
    (hrun : ∀ i, (steps i).run m = (outcome i, m)) : V.Agree m steps :=
  .inr ⟨outcome, m, .refl m, h, .of_forall hrun⟩

theorem plain {step : Eval α} (h : step.Plain V.points) : V.Agree m fun _ => step := by
  rcases hrun : step.run m with ⟨signal | a, m'⟩
  · exact .inr ⟨_, m', h.samePlace hrun, .of_plain h hrun, .of_forall fun _ => hrun⟩
  · exact .inr ⟨_, m', h.samePlace hrun, .value a, .of_forall fun _ => hrun⟩

theorem pure {a : α} : V.Agree m fun _ => (Pure.pure a : Eval α) :=
  plain .pure

theorem raise {fault : Fault} {span : Span} (h : V.points span) :
    V.Agree m fun _ => (Eval.raise fault span : Eval α) :=
  plain (.raise h)

theorem throw {signal : Signal} (herror : ∀ e, signal ≠ .error e)
    (h : signal = .exhausted → V.mayExhaust) : V.Agree m fun _ => (throw signal : Eval α) :=
  ends (.signal signal herror h) fun _ => rfl

theorem throw_exhausted (h : V.mayExhaust) :
    V.Agree m fun _ => (MonadExcept.throw .exhausted : Eval α) :=
  throw nofun fun _ => h

/-- Errors that were told by the versions go on as they are. -/
theorem throw_error {e : ι → Diagnostic} (h : V.errors e) :
    V.Agree m fun i => (MonadExcept.throw (.error (e i)) : Eval α) :=
  ends (.error e h) fun _ => rfl

/-- Steps that give up at once. -/
theorem unreachable {F : Filter ι} (hF : F ∈ V.strict)
    (h : ∀ᶠ i in F, ((steps i).run m).1 = .error .unreachable) : V.Agree m steps :=
  .inl ⟨F, hF, h⟩

/-- Steps that go on as others do, from a state at the same place. -/
theorem follow {steps' : ι → Eval α} (hm : m.SamePlace m')
    (h : ∀ᶠ i in V.most, (steps' i).run m = (steps i).run m') (h' : V.Agree m' steps) :
    V.Agree m steps' := by
  rcases h' with ⟨F, hF, hbad⟩ | ⟨outcome, after, hplace, halike, hrun⟩
  · refine .inl ⟨F, hF, (hbad.and (V.strict_le F hF h)).mono fun i hi => ?_⟩
    rw [hi.2]
    exact hi.1
  · exact .inr ⟨outcome, after, hm.trans hplace, halike,
      (h.and hrun).mono fun i hi => hi.1.trans hi.2⟩

/-- **Sequences.**  Where the first steps end alike, the next ones start alike. -/
theorem bind (h : V.Agree m steps)
    (hk : ∀ a m', m.SamePlace m' → V.Agree m' fun i => k i a) :
    V.Agree m fun i => steps i >>= k i := by
  rcases h with ⟨F, hF, hbad⟩ | ⟨outcome, m', hplace, halike, hrun⟩
  · refine .inl ⟨F, hF, hbad.mono fun i hi => ?_⟩
    rcases hstep : (steps i).run m with ⟨outcome, m'⟩
    rw [hstep] at hi
    cases hi
    rw [Step.run_bind_error hstep]
  · cases halike with
    | value a =>
      exact (hk a m' hplace).follow hplace (hrun.mono fun i hi => Step.run_bind_ok hi)
    | error e he =>
      exact .inr ⟨_, m', hplace, .error e he, hrun.mono fun i hi => Step.run_bind_error hi⟩
    | signal s hs hexhausted =>
      exact .inr ⟨_, m', hplace, .signal s hs hexhausted,
        hrun.mono fun i hi => Step.run_bind_error hi⟩

/-- A first step that is known to end with a value. -/
theorem bind_run {step : Eval α} {a : α} (hrun : step.run m = (.ok a, m')) (hm : m.SamePlace m')
    (h : V.Agree m' fun i => k i a) : V.Agree m fun i => step >>= k i :=
  h.follow hm (.of_forall fun _ => Step.run_bind_ok hrun)

/-- A first step that every version takes, where what it ends with matters. -/
theorem bind_known {step : Eval α} (h : step.Plain V.points)
    (hk : ∀ a m', m.SamePlace m' → step.run m = (.ok a, m') → V.Agree m' fun i => k i a) :
    V.Agree m fun i => step >>= k i := by
  rcases hrun : step.run m with ⟨signal | a, m'⟩
  · exact .inr ⟨_, m', h.samePlace hrun, .of_plain h hrun,
      .of_forall fun _ => Step.run_bind_error hrun⟩
  · have hm : m.SamePlace m' := h.samePlace hrun
    exact bind_run hrun hm (hk a m' hm hrun)

/-- A first step that every version takes. -/
theorem bind_plain {step : Eval α} (h : step.Plain V.points)
    (hk : ∀ a m', m.SamePlace m' → V.Agree m' fun i => k i a) :
    V.Agree m fun i => step >>= k i :=
  bind_known h fun a m' hm _ => hk a m' hm

theorem bind_get {k : ι → Machine → Eval β} (h : V.Agree m fun i => k i m) :
    V.Agree m fun i => get >>= k i :=
  bind_run (Step.run_get m) (.refl m) h

theorem discard (h : V.Agree m steps) : V.Agree m fun i => Functor.discard (steps i) := by
  simp only [Step.discard_eq_bind]
  exact bind h fun _ _ _ => pure

/-! ## Brackets -/

/-- Brackets that are opened at `inner` and closed by `leave`: how a step ends is looked at by `k`,
which lets the signal pass that strict versions give up with. -/
theorem bracket {inner : Machine} (leave : Machine → Machine) {steps' : ι → Eval β}
    {k : ι → Except Signal α → Eval β} (hV : V.Hosts V') (h : V'.Agree inner steps)
    (hrun : ∀ i, (steps' i).run m =
      (k i ((steps i).run inner).1).run (leave ((steps i).run inner).2))
    (hpass : ∀ i, k i (.error .unreachable) = MonadExcept.throw .unreachable)
    (hplace : ∀ m', inner.SamePlace m' → m.SamePlace (leave m'))
    (hk : ∀ outcome m', m.SamePlace m' → V'.Alike outcome →
      V.Agree m' fun i => k i (outcome i)) :
    V.Agree m steps' := by
  rcases h with ⟨F, hF, hbad⟩ | ⟨outcome, m', hinner, halike, hall⟩
  · refine .inl ⟨F, hV.strict ▸ hF, hbad.mono fun i hi => ?_⟩
    rw [hrun, hi, hpass]
    rfl
  · refine (hk outcome (leave m') (hplace m' hinner) halike).follow (hplace m' hinner) ?_
    exact (hV.most ▸ hall).mono fun i hi => by rw [hrun, hi]

theorem observe_bind {k : ι → Except Signal α → Eval β} (hV : V.Hosts V') (h : V'.Agree m steps)
    (hpass : ∀ i, k i (.error .unreachable) = MonadExcept.throw .unreachable)
    (hk : ∀ outcome m', m.SamePlace m' → V'.Alike outcome →
      V.Agree m' fun i => k i (outcome i)) :
    V.Agree m fun i => Eval.observe (steps i) >>= k i :=
  h.bracket id hV (fun i => Step.run_bind_ok (Eval.run_observe (steps i) m)) hpass
    (fun _ => id) hk

theorem inContext_bind {name : String} {k : ι → Except Signal α → Eval β} (hV : V.Hosts V')
    (h : V'.Agree (m.entering name) steps)
    (hpass : ∀ i, k i (.error .unreachable) = MonadExcept.throw .unreachable)
    (hk : ∀ outcome m', m.SamePlace m' → V'.Alike outcome →
      V.Agree m' fun i => k i (outcome i)) :
    V.Agree m fun i => Eval.inContext name (steps i) >>= k i :=
  h.bracket (·.leaving m.loopDepth) hV
    (fun i => Step.run_bind_ok (Eval.run_inContext name (steps i) m)) hpass (fun _ => .leaving) hk

theorem conclude {outcome : ι → Except Signal α} (h : V.Alike outcome) :
    V.Agree m fun i => Eval.conclude (outcome i) :=
  ends h fun i => Eval.run_conclude (outcome i) m

theorem whileImporting {path : String} (h : V.Agree (m.enteringImport path) steps) :
    V.Agree m fun i => Eval.whileImporting path (steps i) :=
  h.bracket (k := fun _ => Eval.conclude) Machine.leavingImport (.refl V)
    (fun i => by rw [Eval.run_whileImporting, Eval.run_conclude]) (fun _ => rfl)
    (fun _ => .leavingImport) fun _ _ _ => conclude

theorem iteration {bodies : ι → Eval Value} (h : V.Agree m.enteringLoop bodies) :
    V.Agree m fun i => Eval.iteration (bodies i) := by
  refine h.bracket (k := fun _ outcome => Eval.conclude (Eval.iterationOutcome outcome))
    Machine.leavingLoop (.refl V) (fun i => by rw [Eval.run_iteration, Eval.run_conclude])
    (fun _ => rfl) (fun _ => .leavingLoop) fun outcome m' _ halike => ?_
  cases halike with
  | value v => exact conclude (Alike.value (Iteration.value v))
  | error e he => exact conclude (.error e he)
  | signal s hs hexhausted =>
    cases s with
    | continued => exact conclude (Alike.value Iteration.skipped)
    | broke => exact conclude (Alike.value Iteration.stopped)
    | _ => exact conclude (.signal _ hs hexhausted)

end Agree

end Versions

open Versions Discipline

variable {ι : Type} {V : Versions ι} {m : Machine} {visit : ι → Visit} {scope : ScopeId}

namespace Construct

/-! ## Containers -/

theorem evalAll_agree : ∀ {m : Machine} (nodes : List Node),
    (∀ node ∈ nodes, V.Visits m visit node) → V.Agree m fun i => evalAll (visit i) scope nodes
  | _, [], _ => Agree.pure
  | _, node :: rest, h => by
    simp only [evalAll, List.mapM_cons]
    refine ((h node List.mem_cons_self).here scope).bind fun v m' hm => ?_
    have hrest : ∀ n ∈ rest, V.Visits m' visit n :=
      fun n hn => (h n (List.mem_cons_of_mem _ hn)).later hm.stacks
    exact (evalAll_agree rest hrest).bind fun _ _ _ => Agree.pure

theorem list_agree {items : List Node} (h : ∀ node ∈ items, V.Visits m visit node) :
    V.Agree m fun i => list (visit i) scope items :=
  (evalAll_agree items h).bind fun _ _ _ => .plain .newList

theorem object_agree {entries : List (Ident × Node)}
    (h : ∀ node ∈ entries.map (·.2), V.Visits m visit node) :
    V.Agree m fun i => object (visit i) scope entries :=
  (evalAll_agree _ h).bind fun _ _ _ => .plain .newObject

/-! ## Names -/

theorem declare_agree {name : Ident} {value : Node} {isPublic : Bool}
    (h : V.Visits m visit value) : V.Agree m fun i => declare (visit i) scope name value isPublic :=
  (h.here scope).bind fun _ _ _ => .plain (.bind .bindName fun _ => .pure)

theorem assign_plain {P : Span → Prop} {op : AssignOp} {old v : Value} {span : Span}
    (h : P span) : (Eval.located span (Operator.assign op old v)).Plain P :=
  .located h fun _ => Operator.assign_performs op (free_carries _ _) (free_carries _ _)

theorem update_agree {name : Ident} {op : AssignOp} {value : Node} (hname : V.points name.span)
    (h : V.Visits m visit value) : V.Agree m fun i => update (visit i) scope name op value := by
  refine Agree.bind_plain (.lookup hname) fun old m₁ hm₁ => ?_
  refine ((h.later hm₁.stacks).here scope).bind fun v m₂ _ => ?_
  exact .plain (.bind (assign_plain h.1) fun _ => .bind .bindName fun _ => .pure)

theorem expectObject_plain {P : Span → Prop} {name : Ident} {v : Value} (h : P name.span) :
    (expectObject name v).Plain P := by
  cases v with
  | object id => exact .pure
  | _ => exact .raise h

theorem entryOf_plain {P : Span → Prop} {object : ObjectId} {name : Ident} (h : P name.span) :
    (entryOf object name).Plain P :=
  .bind .get fun _ => .orRaise h

theorem ownerOf_plain {P : Span → Prop} : ∀ {object : ObjectId} {first : Ident} {rest : List Ident},
    (∀ name ∈ first :: rest, P name.span) → (ownerOf object first rest).Plain P
  | _, _, [], _ => .pure
  | _, _, _ :: _, h => by
    obtain ⟨hfirst, hrest⟩ := List.forall_mem_cons.1 h
    exact .bind (entryOf_plain hfirst) fun _ => .bind (expectObject_plain hfirst) fun _ =>
      ownerOf_plain hrest

/-- The last name on the way is one of those the way is made of. -/
theorem mem_of_ownerOf : ∀ {m m' : Machine} {object : ObjectId} {first : Ident} {rest : List Ident}
    {owner : ObjectId × Ident}, (ownerOf object first rest).run m = (.ok owner, m') →
      owner.2 ∈ first :: rest
  | _, _, _, _, [], _, h => by
    cases h
    exact List.mem_cons_self
  | _, _, _, _, _ :: _, _, h => by
    obtain ⟨_, _, _, h⟩ := Step.run_bind_eq_ok h
    obtain ⟨_, _, _, h⟩ := Step.run_bind_eq_ok h
    exact List.mem_cons_of_mem _ (mem_of_ownerOf h)

theorem memberAssign_agree {path : List Ident} {op : AssignOp} {value : Node}
    (hpath : ∀ name ∈ path, V.points name.span) (h : V.Visits m visit value) :
    V.Agree m fun i => memberAssign (visit i) scope path op value := by
  match path with
  | first :: second :: rest =>
    obtain ⟨hfirst, hrest⟩ := List.forall_mem_cons.1 hpath
    refine Agree.bind_plain (.lookup hfirst) fun binding m₁ hm₁ => ?_
    refine Agree.bind_plain (expectObject_plain hfirst) fun root m₂ hm₂ => ?_
    refine Agree.bind_known (ownerOf_plain hrest) fun owner m₃ hm₃ howner => ?_
    have hlast : V.points owner.2.span := hrest _ (mem_of_ownerOf howner)
    have hvalue := h.later ((hm₁.trans hm₂).trans hm₃).stacks
    refine (hvalue.here scope).bind fun v m₄ _ => .plain ?_
    have hset : ∀ updated : Value, Eval.Plain V.points (do
        Eval.located value.span (Action.modifyEntries owner.1 (·.set owner.2.name updated))
        return updated) := fun updated =>
      .bind (.located h.1 fun _ => Performs.modifyEntries trivial
        (fun h => Table.nodup_keys_set h _ _) fun _ _ => free_carries _ _)
        fun _ => .pure
    cases op with
    | set => exact hset v
    | add => exact .bind (entryOf_plain hlast) fun _ => .bind (assign_plain h.1) hset
    | subtract => exact .bind (entryOf_plain hlast) fun _ => .bind (assign_plain h.1) hset
  | [] => exact Agree.pure
  | [_] => exact Agree.pure

/-! ## Operators -/

theorem binary_agree {lhs rhs : Node} {op : BinaryOp} (hl : V.Visits m visit lhs)
    (hr : V.Visits m visit rhs) : V.Agree m fun i => binary (visit i) scope lhs op rhs := by
  refine (hl.here scope).bind fun left m₁ hm₁ => ?_
  refine ((hr.later hm₁.stacks).here scope).bind fun right m₂ _ => .plain ?_
  exact .located hr.1 fun _ => Operator.binary_performs op (free_carries _ _) (free_carries _ _)

theorem unary_agree {op : UnaryOp} {operand : Node} (h : V.Visits m visit operand) :
    V.Agree m fun i => unary (visit i) scope op operand :=
  (h.here scope).bind fun v _ _ => .plain (.located h.1 fun _ => Operator.unary_performs op v)

theorem member_agree {target : Node} {name : Ident} (hname : V.points name.span)
    (h : V.Visits m visit target) : V.Agree m fun i => member (visit i) scope target name :=
  (h.here scope).bind fun _ _ _ =>
    .plain (.located hname fun _ => Value.member_performs name.name (free_carries _ _))

/-! ## Choices -/

theorem armBody_agree {body : Body} (h : V.Visits m visit body.node) :
    V.Agree m fun i => armBody (visit i) scope body :=
  (h.here scope).bind fun _ _ _ => Agree.pure

theorem conditional_agree {otherwise : Option Body} :
    ∀ {m : Machine} (arms : List (Node × Body)),
      (∀ arm ∈ arms, V.Visits m visit arm.1 ∧ V.Visits m visit arm.2.node) →
      (∀ body, otherwise = some body → V.Visits m visit body.node) →
      V.Agree m fun i => conditional (visit i) scope otherwise arms
  | _, [], _, hotherwise => by
    cases otherwise with
    | none => exact Agree.pure
    | some body => exact armBody_agree (hotherwise body rfl)
  | _, (condition, body) :: rest, harms, hotherwise => by
    obtain ⟨hcondition, hbody⟩ := harms _ List.mem_cons_self
    refine (hcondition.here scope).bind fun v m' hm => ?_
    by_cases hv : v.isTruthy = true
    · simp only [if_pos hv]
      exact armBody_agree (hbody.later hm.stacks)
    · simp only [if_neg hv]
      refine conditional_agree rest (fun arm harm => ?_) fun body hbody => ?_
      · obtain ⟨hc, hb⟩ := harms arm (List.mem_cons_of_mem _ harm)
        exact ⟨hc.later hm.stacks, hb.later hm.stacks⟩
      · exact (hotherwise body hbody).later hm.stacks

theorem switchCases_agree {subject : Value} {otherwise : Option Node} :
    ∀ {m : Machine} (cases : List (Node × Node)),
      (∀ entry ∈ cases, V.Visits m visit entry.1 ∧ V.Visits m visit entry.2) →
      (∀ body, otherwise = some body → V.Visits m visit body) →
      V.Agree m fun i => switchCases (visit i) scope subject otherwise cases
  | _, [], _, hotherwise => by
    cases otherwise with
    | none => exact Agree.pure
    | some body => exact ((hotherwise body rfl).here scope).discard.bind fun _ _ _ => Agree.pure
  | _, (pattern, body) :: rest, hcases, hotherwise => by
    obtain ⟨hpattern, hbody⟩ := hcases _ List.mem_cons_self
    refine (hpattern.here scope).bind fun v m' hm => Agree.bind_get ?_
    by_cases hv : m'.store.equal v subject = true
    · simp only [if_pos hv]
      exact ((hbody.later hm.stacks).here scope).discard.bind fun _ _ _ => Agree.pure
    · simp only [if_neg hv]
      refine switchCases_agree rest (fun entry hentry => ?_) fun body hbody => ?_
      · obtain ⟨hp, hb⟩ := hcases entry (List.mem_cons_of_mem _ hentry)
        exact ⟨hp.later hm.stacks, hb.later hm.stacks⟩
      · exact (hotherwise body hbody).later hm.stacks

theorem numberFor_agree {node : Node} (h : V.Visits m visit node) :
    V.Agree m fun i => numberFor (visit i) scope node := by
  refine (h.here scope).bind fun v m' _ => ?_
  cases v with
  | number n => exact Agree.pure
  | _ => exact Agree.raise h.1

end Construct

/-! ## Loops -/

namespace Loop

variable {σ : Type} {steps : ι → σ → Eval (Option σ)} {body : Node}

/-- One iteration and those behind it. -/
theorem iterate_agree {bound : ι → Nat} {next : σ} {done : Array Value}
    (hbody : V.Visits m visit body)
    (hrest : ∀ m' done, m.SamePlace m' →
      V.Agree m' fun i => run (steps i) (visit i scope body) (bound i) next done) :
    V.Agree m fun i => do
      match ← Eval.iteration (visit i scope body) with
      | .value v => run (steps i) (visit i scope body) (bound i) next (done.push v)
      | .skipped => run (steps i) (visit i scope body) (bound i) next done
      | .stopped => return none := by
  have hinside : V.Agree m.enteringLoop fun i => visit i scope body :=
    hbody.2 scope m.enteringLoop ⟨rfl, rfl⟩
  refine hinside.iteration.bind fun outcome m' hm => ?_
  cases outcome with
  | value v => exact hrest m' _ hm
  | skipped => exact hrest m' done hm
  | stopped => exact Agree.pure

/-- **Loops with a bound in common.**  The induction is on the bound. -/
theorem run_agree (hmay : V.mayExhaust)
    (hstep : ∀ {m' : Machine} {state : σ}, m.SameStacks m' → V.Agree m' fun i => steps i state)
    (hbody : V.Visits m visit body) :
    ∀ (bound : Nat) {m' : Machine} {state : σ} {done : Array Value}, m.SameStacks m' →
      V.Agree m' fun i => run (steps i) (visit i scope body) bound state done
  | 0, _, _, _, _ => .throw_exhausted hmay
  | bound + 1, _, _, _, hm => by
    refine (hstep hm).bind fun next m₁ hm₁ => ?_
    have hstacks := hm.trans hm₁.stacks
    cases next with
    | none => exact Agree.pure
    | some next =>
      exact iterate_agree (hbody.later hstacks) fun m₂ done hm₂ =>
        run_agree hmay hstep hbody bound (hstacks.trans hm₂.stacks)

/-- **Loops over entries.**  The entries are taken before the loop, so it ends by itself; the bounds
only have to be higher than their number. -/
theorem object_agree {key value : String} (hbody : V.Visits m visit body) :
    ∀ (entries : Table String Value) {bound : ι → Nat} {m' : Machine} {done : Array Value},
      (∀ᶠ i in V.most, entries.length < bound i) → m.SameStacks m' →
      V.Agree m' fun i =>
        run (objectStep scope key value) (visit i scope body) (bound i) entries done
  | entries, bound, m', done, hbound, hm => by
    have hsucc : ∀ᶠ i in V.most,
        (run (objectStep scope key value) (visit i scope body) (bound i) entries done).run m' =
          (run (objectStep scope key value) (visit i scope body) (bound i - 1 + 1) entries
            done).run m' := by
      filter_upwards [hbound] with i hi
      rw [Nat.sub_add_cancel (Nat.one_le_of_lt hi)]
    refine Agree.follow (.refl m') hsucc ?_
    cases entries with
    | nil => exact Agree.pure
    | cons entry rest =>
      have hrest : ∀ᶠ i in V.most, rest.length < bound i - 1 := by
        filter_upwards [hbound] with i hi
        rw [List.length_cons] at hi
        omega
      obtain ⟨m₁, hrun, hm₁⟩ : ∃ m₁, (objectStep scope key value (entry :: rest)).run m' =
          (.ok (some rest), m₁) ∧ m'.SamePlace m₁ := ⟨_, rfl, rfl, rfl, rfl⟩
      have hstacks := hm.trans hm₁.stacks
      exact Agree.bind_run hrun hm₁ (iterate_agree (hbody.later hstacks) fun m₂ done hm₂ =>
        object_agree hbody rest hrest (hstacks.trans hm₂.stacks))

theorem value_plain {P : Span → Prop} {isBlock : Bool} {result : Option (Array Value)} :
    (value isBlock result).Plain P := by
  cases result with
  | none => exact .pure
  | some values =>
    cases isBlock with
    | true => exact .pure
    | false => exact .newList

theorem countStep_plain {P : Span → Prop} {name : String} {last stride i : Float} :
    (countStep scope name last stride i).Plain P :=
  .bind .bindName fun _ => .pure

theorem listStep_plain {P : Span → Prop} {name : String} {list : ListId} {i : Nat} :
    (listStep scope name list i).Plain P := by
  refine .bind .get fun m => ?_
  cases (m.store.items list)[i]? with
  | none => exact .pure
  | some item => exact .bind .bindName fun _ => .pure

theorem objectStep_plain {P : Span → Prop} {key value : String} (entries : Table String Value) :
    (objectStep scope key value entries).Plain P := by
  cases entries with
  | nil => exact .pure
  | cons entry rest => exact .bind .bindName fun _ => .bind .bindName fun _ => .pure

end Loop

namespace Construct

theorem forCount_agree (hmay : V.mayExhaust) {bound : Nat} {name : Ident} {first last : Node}
    {step : Option Node} {body : Body} (hfirst : V.Visits m visit first)
    (hlast : V.Visits m visit last) (hstep : ∀ node, step = some node → V.Visits m visit node)
    (hbody : V.Visits m visit body.node) :
    V.Agree m fun i => forCount (visit i) bound scope name first last step body := by
  have hloop : ∀ {m' : Machine} {start stop stride : Float}, m.SameStacks m' →
      V.Agree m' (fun i => do
        let values ← Loop.run (Loop.countStep scope name.name stop stride)
          (visit i scope body.node) bound start #[]
        Loop.value body.isBlock values) := by
    intro m' start stop stride hm
    refine (Loop.run_agree hmay (fun _ => ?_) hbody bound hm).bind
      fun _ _ _ => .plain Loop.value_plain
    exact .plain Loop.countStep_plain
  refine (numberFor_agree hfirst).bind fun start m₁ hm₁ => ?_
  refine (numberFor_agree (hlast.later hm₁.stacks)).bind fun stop m₂ hm₂ => ?_
  have hm := (hm₁.trans hm₂).stacks
  cases step with
  | none => exact hloop hm
  | some node =>
    refine (numberFor_agree ((hstep node rfl).later hm)).bind fun stride m₃ hm₃ => ?_
    exact hloop (hm.trans hm₃.stacks)

theorem forList_agree (hmay : V.mayExhaust) {bound : Nat} {name : Ident} {list : Node} {body : Body}
    (hlist : V.Visits m visit list) (hbody : V.Visits m visit body.node) :
    V.Agree m fun i => forList (visit i) bound scope name list body := by
  refine (hlist.here scope).bind fun v m₁ hm₁ => ?_
  cases v with
  | list id =>
    refine (Loop.run_agree hmay (fun _ => ?_) hbody bound hm₁.stacks).bind
      fun _ _ _ => .plain Loop.value_plain
    exact .plain Loop.listStep_plain
  | _ => exact Agree.raise hlist.1

/-- The bounds are one, or they grow beyond the number of entries, whatever that is. -/
theorem forObject_agree {bound : ι → Nat} {key value : Ident} {object : Node} {body : Body}
    (hbound : (V.mayExhaust ∧ ∃ b, ∀ i, bound i = b) ∨ ∀ n, ∀ᶠ i in V.most, n < bound i)
    (hobject : V.Visits m visit object) (hbody : V.Visits m visit body.node) :
    V.Agree m fun i => forObject (visit i) (bound i) scope key value object body := by
  refine (hobject.here scope).bind fun v m₁ hm₁ => ?_
  cases v with
  | object id =>
    refine Agree.bind_get ?_
    rcases hbound with ⟨hmay, b, hb⟩ | hgrows
    · simp only [hb]
      refine (Loop.run_agree hmay (fun _ => ?_) hbody b hm₁.stacks).bind
        fun _ _ _ => .plain Loop.value_plain
      exact .plain (Loop.objectStep_plain _)
    · exact (Loop.object_agree hbody _ (hgrows _) hm₁.stacks).bind
        fun _ _ _ => .plain Loop.value_plain
  | _ => exact Agree.raise hobject.1

theorem whileLoop_agree (hmay : V.mayExhaust) {bound : Nat} {condition : Node} {body : Body}
    (hcondition : V.Visits m visit condition) (hbody : V.Visits m visit body.node) :
    V.Agree m fun i => whileLoop (visit i) bound scope condition body := by
  refine (Loop.run_agree hmay (fun hm => ?_) hbody bound ⟨rfl, rfl⟩).bind
    fun _ _ _ => .plain Loop.value_plain
  exact ((hcondition.later hm).here scope).bind fun _ _ _ => Agree.pure

/-! ## Functions -/

theorem function_plain {P : Span → Prop} {definition : Function} :
    (function scope definition).Plain P := by
  unfold function
  cases definition.ident with
  | none => exact .pure
  | some name => exact .bind .bindName fun _ => .pure

theorem runClosure_agree {c : Closure} {args : List Value}
    (h : V.Visits m visit c.definition.body) :
    V.Agree m fun i => runClosure (visit i) c args := by
  refine Agree.bind_plain .newScope fun inner m₁ hm₁ => ?_
  refine ((h.later hm₁.stacks).here inner).observe_bind (.refl V) (fun _ => rfl)
    fun outcome m₂ _ halike => ?_
  cases halike with
  | value v => exact Agree.pure
  | error e he => exact Agree.throw_error he
  | signal signal hs hexhausted =>
    cases signal with
    | error e => exact absurd rfl (hs e)
    | returned v => exact Agree.pure
    | _ => exact Agree.throw hs hexhausted

theorem apply_agree {f : Callable} {args : List Value} {span : Span} (hspan : V.points span)
    (h : ∀ c, f = .closure c → V.Visits m visit c.definition.body) :
    V.Agree m fun i => apply (visit i) f args span := by
  cases f with
  | closure c => exact runClosure_agree (h c rfl)
  | native n =>
    exact .plain (.located hspan fun _ =>
      Native.call_performs (free_carries _ _) fun _ _ => free_carries _ _)

/-- A call is made only while there is room for it.  Inside of it, errors may be told in another
way: what counts is how they are told once they have left it. -/
theorem invokeWith_agree {apply : ι → Callable → List Value → Span → Eval Value}
    {leave : ι → String → Diagnostic → Diagnostic} {f : Callable} {args : List Value} {span : Span}
    (hspan : V.points span) (hV : V.Hosts V')
    (hleave : m.contexts.size ≤ maxCallDepth → ∀ e, V'.errors e →
      V.errors fun i => leave i (m.contexts.back?.getD "") (e i))
    (h : ∀ args, m.contexts.size ≤ maxCallDepth →
      V'.Agree (m.entering f.name) fun i => apply i f args span) :
    V.Agree m fun i => invokeWith (apply i) (leave i) f args span := by
  unfold invokeWith
  cases bindArgs f args with
  | error fault => exact Agree.raise hspan
  | ok args =>
    refine Agree.bind_get ?_
    by_cases hdepth : maxCallDepth < m.contexts.size
    · simp only [if_pos hdepth]
      exact Agree.raise hspan
    · simp only [if_neg hdepth]
      refine Agree.bind_get ?_
      refine (h args (Nat.not_lt.1 hdepth)).inContext_bind hV (fun _ => rfl)
        fun outcome m' _ halike => ?_
      cases halike with
      | value v => exact Agree.pure
      | error e he => exact Agree.throw_error (hleave (Nat.not_lt.1 hdepth) e he)
      | signal signal hs hexhausted =>
        cases signal with
        | error e => exact absurd rfl (hs e)
        | _ => exact Agree.throw hs fun hends => hV.mayExhaust (hexhausted hends)

theorem invokeBy_agree {apply : ι → Callable → List Value → Span → Eval Value} {f : Callable}
    {args : List Value} {span : Span} (hspan : V.points span) (hV : V.Hosts V')
    (hleaving : ∀ e caller, V'.errors e → V.errors fun i => (e i).leaving caller span)
    (h : ∀ args, m.contexts.size ≤ maxCallDepth →
      V'.Agree (m.entering f.name) fun i => apply i f args span) :
    V.Agree m fun i => invokeBy (apply i) f args span := by
  simp only [invokeBy_eq]
  exact invokeWith_agree hspan hV (fun _ e he => hleaving e _ he) h

theorem callBy_agree {invoke : ι → Callable → List Value → Span → Eval Value} {callee : Node}
    {args : List Node} {span : Span} (hcallee : V.Visits m visit callee)
    (hargs : ∀ node ∈ args, V.Visits m visit node)
    (hinvoke : ∀ f values m', m.SameStacks m' → V.Agree m' fun i => invoke i f values span) :
    V.Agree m fun i => callBy (visit i) (invoke i) scope callee args span := by
  refine (hcallee.here scope).bind fun f m₁ hm₁ => ?_
  refine (evalAll_agree args fun node hnode => (hargs node hnode).later hm₁.stacks).bind
    fun values m₂ hm₂ => ?_
  cases f with
  | callable f => exact hinvoke f values m₂ (hm₁.trans hm₂).stacks
  | _ => exact Agree.raise hcallee.1

/-! ## Modules -/

/-- A program ends with an error as with a value, so all versions have to tell the same one. -/
theorem program_agree (hV : V.Hosts V') (herrors : ∀ e, V'.errors e → ∃ e₀, e = fun _ => e₀)
    {root : Node} (h : V'.Visits m visit root) :
    V.Agree m fun i => program (visit i) scope root := by
  refine (h.here scope).observe_bind hV (fun _ => rfl) fun outcome m' _ halike => ?_
  cases halike with
  | value v => exact Agree.pure
  | error e he =>
    obtain ⟨e₀, rfl⟩ := herrors e he
    exact Agree.pure
  | signal signal hs hexhausted =>
    cases signal with
    | error e => exact absurd rfl (hs e)
    | returned v => exact Agree.pure
    | exhausted => exact Agree.throw_exhausted (hV.mayExhaust (hexhausted rfl))
    | broke => exact Agree.throw nofun nofun
    | continued => exact Agree.throw nofun nofun
    | unreachable => exact Agree.throw nofun nofun

theorem runModule_agree (hV : V.Hosts V') (herrors : ∀ e, V'.errors e → ∃ e₀, e = fun _ => e₀)
    (hmay : V.mayExhaust) {path lib text : String}
    (h : ∀ root, Node.ofSource ⟨lib, text⟩ = .ok root →
      V'.Visits ((m.enteringImport path).entering s!"<module {lib}>") visit root) :
    V.Agree m fun i => runModule (visit i) path lib text scope := by
  unfold runModule
  cases hroot : Node.ofSource ⟨lib, text⟩ with
  | error failure =>
    cases failure with
    | report e => exact Agree.pure
    | exhausted => exact Agree.throw_exhausted hmay
  | ok root =>
    refine Agree.whileImporting ?_
    exact (program_agree hV herrors (h root hroot)).inContext_bind (.refl V) (fun _ => rfl)
      fun outcome m' _ halike => Agree.conclude halike

/-- A module is run only if it is not being imported already. -/
theorem loadBy_agree {run : ι → (path lib text : String) → ScopeId → Eval (Except Diagnostic Value)}
    {lib : String} {span : Span} (hspan : V.points span)
    (h : ∀ path text inner m', m.SameStacks m' → m.importing.any (Path.same path) = false →
      V.Agree m' fun i => run i path lib text inner) :
    V.Agree m fun i => loadBy (run i) lib span := by
  refine Agree.bind_get (Agree.bind_get ?_)
  by_cases hcircular : m.importing.any (Path.same (m.workspace.resolveLib lib)) = true
  · simp only [if_pos hcircular]
    exact Agree.raise hspan
  · simp only [if_neg hcircular]
    refine Agree.bind_get ?_
    cases m.workspace.read (m.workspace.resolveLib lib) with
    | error e => exact Agree.raise hspan
    | ok text =>
      refine Agree.bind_plain .newRoot fun inner m₁ hm₁ => ?_
      refine (h _ text inner m₁ hm₁.stacks (Bool.eq_false_iff.2 hcircular)).bind
        fun outcome m₂ _ => ?_
      cases outcome with
      | error e => exact Agree.raise hspan
      | ok v => exact .plain (.bind .get fun _ => .newObject)

theorem importBy_agree {load : ι → String → Span → Eval Value} {lib : Node} {name : Ident}
    {span : Span} (hspan : V.points span) (hlib : V.Visits m visit lib)
    (hload : ∀ lib m', m.SameStacks m' → V.Agree m' fun i => load i lib span) :
    V.Agree m fun i => importBy (visit i) (load i) scope lib name span := by
  refine (hlib.here scope).bind fun v m₁ hm₁ => ?_
  cases v with
  | text lib =>
    exact (hload lib m₁ hm₁.stacks).bind fun _ _ _ => .plain (.bind .bindName fun _ => .pure)
  | _ => exact Agree.raise hspan

/-! ## Signals -/

theorem returnValue_agree {value : Option Node}
    (h : ∀ node, value = some node → V.Visits m visit node) :
    V.Agree m fun i => returnValue (visit i) scope value := by
  cases value with
  | none => exact Agree.throw nofun nofun
  | some node => exact ((h node rfl).here scope).bind fun _ _ _ => Agree.throw nofun nofun

theorem leaveIteration_plain {P : Span → Prop} {keyword : Keyword} {signal : Signal} {span : Span}
    (hspan : P span) (herror : ∀ e, signal ≠ .error e) (h : signal ≠ .exhausted) :
    (leaveIteration keyword signal span).Plain P := by
  refine .bind .get fun m => ?_
  by_cases hdepth : m.loopDepth = 0
  · simp only [if_pos hdepth]
    exact .raise hspan
  · simp only [if_neg hdepth]
    exact fun m => ⟨.refl m, fun hsignal => h (Except.error.inj hsignal),
      fun e hsignal => absurd (Except.error.inj hsignal) (herror e)⟩

theorem breakLoop_plain {P : Span → Prop} {span : Span} (hspan : P span) :
    (leaveIteration .break_ .broke span).Plain P :=
  leaveIteration_plain hspan nofun nofun

theorem continueLoop_plain {P : Span → Prop} {span : Span} (hspan : P span) :
    (leaveIteration .continue_ .continued span).Plain P :=
  leaveIteration_plain hspan nofun nofun

end Construct

/-- Whether a form is a loop that only its body or a bound can end. -/
def Form.repeats : Form → Bool
  | .forCount .. | .forList .. | .whileLoop .. => true
  | _ => false

namespace Node

/-- **One node of any sort.**  The versions agree on it if they agree on its parts, on calls and on
imports.  Their bounds are one, or else they grow and the node is no loop that needs one. -/
theorem evalFormBy_agree {invoke : ι → Callable → List Value → Span → Eval Value}
    {load : ι → String → Span → Eval Value} {bound : ι → Nat} {node : Node}
    (hspan : V.points node.span) (hnames : ∀ name ∈ node.form.lookups, V.points name.span)
    (hparts : ∀ part ∈ node.form.parts, V.Visits m visit part)
    (hinvoke : ∀ f values m', m.SameStacks m' → V.Agree m' fun i => invoke i f values node.span)
    (hload : ∀ lib name, node.form = .importAs lib name → ∀ lib m', m.SameStacks m' →
      V.Agree m' fun i => load i lib node.span)
    (hbound : (V.mayExhaust ∧ ∃ b, ∀ i, bound i = b) ∨
      (∀ n, ∀ᶠ i in V.most, n < bound i) ∧ node.form.repeats = false) :
    V.Agree m fun i => evalFormBy (bound i) (visit i) (invoke i) (load i) scope node := by
  obtain ⟨form, span⟩ := node
  cases form with
  | number x => exact Agree.pure
  | text s => exact Agree.pure
  | boolean b => exact Agree.pure
  | null => exact Agree.pure
  | list items => exact Construct.list_agree hparts
  | object entries => exact Construct.object_agree hparts
  | access name => exact .plain (.bind (.lookup (hnames name List.mem_cons_self)) fun _ => .pure)
  | member target name =>
    exact Construct.member_agree (hnames name List.mem_cons_self) (hparts _ List.mem_cons_self)
  | assign name op value declares isPublic =>
    have hvalue := hparts value List.mem_cons_self
    cases declares with
    | true => exact Construct.declare_agree hvalue
    | false => exact Construct.update_agree (hnames name List.mem_cons_self) hvalue
  | memberAssign path op value =>
    exact Construct.memberAssign_agree hnames (hparts _ List.mem_cons_self)
  | binary lhs op rhs =>
    exact Construct.binary_agree (hparts _ (by simp [Form.parts])) (hparts _ (by simp [Form.parts]))
  | unary op operand => exact Construct.unary_agree (hparts _ List.mem_cons_self)
  | ifElse arms otherwise =>
    refine Construct.conditional_agree arms (fun arm harm => ?_) fun body hbody => hparts _ ?_
    · exact (Form.mem_parts_of_arm harm).imp (hparts _) (hparts _)
    · simp [Form.parts, hbody]
  | switch subject cases otherwise =>
    refine ((hparts subject (by simp [Form.parts])).here scope).bind fun v m' hm => ?_
    have hlater : ∀ part ∈ (Form.switch subject cases otherwise).parts, V.Visits m' visit part :=
      fun part hpart => (hparts part hpart).later hm.stacks
    refine Construct.switchCases_agree cases (fun entry hentry => ?_) fun body hbody => ?_
    · exact (Form.mem_parts_of_case hentry).imp (hlater _) (hlater _)
    · exact hlater body (by simp [Form.parts, hbody])
  | forCount name first last step body =>
    obtain ⟨hmay, b, hb⟩ := hbound.resolve_right (fun h => Bool.noConfusion h.2)
    simp only [hb]
    exact Construct.forCount_agree hmay (hparts _ (by simp [Form.parts]))
      (hparts _ (by simp [Form.parts])) (fun node hnode => hparts _ (by simp [Form.parts, hnode]))
      (hparts _ (by simp [Form.parts]))
  | forList name list body =>
    obtain ⟨hmay, b, hb⟩ := hbound.resolve_right (fun h => Bool.noConfusion h.2)
    simp only [hb]
    exact Construct.forList_agree hmay (hparts _ (by simp [Form.parts]))
      (hparts _ (by simp [Form.parts]))
  | forObject key value object body =>
    exact Construct.forObject_agree (hbound.imp_right And.left) (hparts _ (by simp [Form.parts]))
      (hparts _ (by simp [Form.parts]))
  | whileLoop condition body =>
    obtain ⟨hmay, b, hb⟩ := hbound.resolve_right (fun h => Bool.noConfusion h.2)
    simp only [hb]
    exact Construct.whileLoop_agree hmay (hparts _ (by simp [Form.parts]))
      (hparts _ (by simp [Form.parts]))
  | function definition => exact .plain Construct.function_plain
  | call callee args =>
    exact Construct.callBy_agree (hparts _ List.mem_cons_self)
      (fun node hnode => hparts node (List.mem_cons_of_mem _ hnode)) hinvoke
  | importAs lib name =>
    exact Construct.importBy_agree hspan (hparts _ List.mem_cons_self) (hload lib name rfl)
  | returnValue value =>
    exact Construct.returnValue_agree fun node hnode => hparts node (by simp [Form.parts, hnode])
  | breakLoop => exact .plain (Construct.breakLoop_plain hspan)
  | continueLoop => exact .plain (Construct.continueLoop_plain hspan)
  | block statements => exact Construct.list_agree hparts

/-! ## Watching

Watched runs are versions of the run that is not watched.  Their alarms are told apart by the index.
-/

section Watch

variable {check : Check} {alarm : ι → Option (Eval Value)} {around : List Activity}

/-- At this point the check holds, or else strict versions give up. -/
def Guards (V : Versions ι) (check : Check) (alarm : ι → Option (Eval Value))
    (around : List Activity) (m : Machine) (point : Point) : Prop :=
  check around m point = true ∨
    ∃ F ∈ V.strict, ∀ᶠ i in F, alarm i = some (throw .unreachable)

theorem watchPoint_agree {point : Point} {steps : ι → Eval Value}
    (hguards : Guards V check alarm around m point)
    (h : check around m point = true → V.Agree m steps) :
    V.Agree m fun i => watchPoint check (alarm i) around point (steps i) := by
  by_cases hcheck : check around m point = true
  · refine (h hcheck).follow (.refl m) (.of_forall fun i => ?_)
    cases alarm i with
    | none => rfl
    | some alarm =>
      rw [watchPoint, Step.run_bind_ok (Step.run_get m), if_pos hcheck]
  · obtain ⟨F, hF, halarm⟩ := hguards.resolve_left hcheck
    refine .unreachable hF (halarm.mono fun i hi => ?_)
    rw [hi, watchPoint, Step.run_bind_ok (Step.run_get m), if_neg hcheck]
    rfl

theorem watchApply_agree (hV : V.Uniform) {f : Callable} {args : List Value} {span : Span}
    (hclosure : ∀ c, f = .closure c → V.Visits m visit c.definition.body)
    (hnative : ∀ n, f = .native n → Guards V check alarm around m (.native n)) :
    V.Agree m fun i => watchApply check (alarm i) around (visit i) f args span := by
  cases f with
  | closure c => exact Construct.runClosure_agree (hclosure c rfl)
  | native n =>
    refine watchPoint_agree (hnative n rfl) fun _ => .plain ?_
    exact .located (hV.points span) fun _ =>
      Native.call_performs (free_carries _ _) fun _ _ => free_carries _ _

/-- **One watched node.**  The versions agree on it if they agree on its parts, and inside the calls
and imports it makes. -/
theorem watch_succ_agree (hV : V.Uniform) (bound : ι → Nat) {node : Node}
    (hguards : Guards V check alarm around m (.node node))
    (hbound : check around m (.node node) = true →
      (V.mayExhaust ∧ ∃ b, ∀ i, bound i = b) ∨
        (∀ n, ∀ᶠ i in V.most, n < bound i) ∧ node.form.repeats = false)
    (hparts : ∀ part ∈ node.form.parts,
      V.Visits m (fun i => watch check (alarm i) (bound i) around) part)
    (hcall : ∀ (f : Callable) (values : List Value) (m' : Machine), m.SameStacks m' →
      m.contexts.size ≤ maxCallDepth → V.Agree (m'.entering f.name) fun i =>
        watchApply check (alarm i) (.call f.name :: around)
          (watch check (alarm i) (bound i) (.call f.name :: around)) f values node.span)
    (hmodule : check around m (.node node) = true → ∀ lib name, node.form = .importAs lib name →
      ∀ (path lib text : String) (inner : ScopeId) (m' : Machine), m.SameStacks m' →
        m.importing.any (Path.same path) = false → V.Agree m' fun i =>
          Construct.runModule (watch check (alarm i) (bound i) (.module path :: around)) path lib
            text inner) :
    V.Agree m fun i => watch check (alarm i) (bound i + 1) around scope node := by
  refine watchPoint_agree hguards fun hcheck => ?_
  refine evalFormBy_agree (hV.points _) (fun _ _ => hV.points _) hparts (fun f values m' hm => ?_)
    (fun lib name hform lib' m' hm => ?_) ?_
  · refine Construct.invokeBy_agree (hV.points _) (.refl V) (fun _ _ => hV.leaving)
      fun args hdepth => ?_
    exact hcall f args m' hm (hm.contexts ▸ hdepth)
  · refine Construct.loadBy_agree (hV.points _) fun path text inner m₁ hm₁ hcircular => ?_
    exact hmodule hcheck lib name hform path lib' text inner m₁ (hm.trans hm₁)
      (hm.importing ▸ hcircular)
  · refine (hbound hcheck).imp ?_ ?_
    · rintro ⟨hmay, b, hb⟩
      exact ⟨hmay, b + 1, fun i => congrArg (· + 1) (hb i)⟩
    · rintro ⟨hgrows, hrepeats⟩
      exact ⟨fun n => (hgrows n).mono fun _ hi => Nat.lt_succ_of_lt hi, hrepeats⟩

/-- What is known of the calls and imports around the points of a run: enough for the check to hold
or for strict versions to give up. -/
structure Watches (V : Versions ι) (check : Check) (alarm : ι → Option (Eval Value))
    (Fits : List Activity → Machine → Prop) : Prop where
  guards : ∀ {around m} point, Fits around m → Guards V check alarm around m point
  same : ∀ {around m m'}, Fits around m → m.SameStacks m' → Fits around m'
  call : ∀ {around m} name, Fits around m → m.contexts.size ≤ maxCallDepth →
    Fits (.call name :: around) (m.entering name)
  module : ∀ {around m path} (lib : String), Fits around m →
    m.importing.any (Path.same path) = false →
    Fits (.module path :: around) ((m.enteringImport path).entering s!"<module {lib}>")

/-- **Watched runs with a bound in common.**  The induction is on the bound. -/
theorem watch_agree {Fits : List Activity → Machine → Prop} (hV : V.Uniform) (hmay : V.mayExhaust)
    (h : Watches V check alarm Fits) :
    ∀ (bound : Nat) {around : List Activity} {m : Machine}, Fits around m → ∀ node,
      V.Visits m (fun i => watch check (alarm i) bound around) node
  | 0, _, _, hfits, _ => ⟨hV.points _, fun _ _ hm =>
    watchPoint_agree (h.guards _ (h.same hfits hm)) fun _ => .throw_exhausted hmay⟩
  | bound + 1, around, m, hfits, node => by
    refine ⟨hV.points _, fun scope m' hm => ?_⟩
    have hfits' := h.same hfits hm
    refine watch_succ_agree hV (fun _ => bound) (h.guards _ hfits')
      (fun _ => .inl ⟨hmay, bound, fun _ => rfl⟩)
      (fun part _ => watch_agree hV hmay h bound hfits' part) (fun f values m₁ hm₁ hdepth => ?_)
      fun _ _ _ _ path lib text inner m₁ hm₁ hcircular => ?_
    · have hinside := h.call f.name (h.same hfits' hm₁) (hm₁.contexts ▸ hdepth)
      exact watchApply_agree hV (fun c _ => watch_agree hV hmay h bound hinside _)
        fun n _ => h.guards _ hinside
    · have hinside := h.module lib (h.same hfits' hm₁) (hm₁.importing ▸ hcircular)
      exact Construct.runModule_agree (.refl V) (fun _ he => (hV.errors _).1 he) hmay fun root _ =>
         watch_agree hV hmay h bound hinside root

end Watch

end Node

/-! ## All at once -/

/-- All versions of a family, with some of them strict. -/
def Versions.all (strict : Set ι) : Versions ι where
  most := ⊤
  strict := Pure.pure '' strict
  strict_le := fun _ _ => le_top
  mayExhaust := True

theorem Versions.all_uniform (strict : Set ι) : (Versions.all strict).Uniform :=
  ⟨fun _ => trivial, fun _ => Iff.rfl⟩

theorem Versions.Agree.gives_up {α : Type} {strict : Set ι} {steps : ι → Eval α} {i : ι}
    (hi : i ∈ strict) (h : ((steps i).run m).1 = .error .unreachable) :
    (Versions.all strict).Agree m steps :=
  .unreachable ⟨i, hi, rfl⟩ (eventually_pure.2 h)

/-- If no strict version gives up, all do the same. -/
theorem Versions.Agree.run_eq {α : Type} {strict : Set ι} {steps : ι → Eval α}
    (h : (Versions.all strict).Agree m steps)
    (hstrict : ∀ i ∈ strict, ((steps i).run m).1 ≠ .error .unreachable) (i j : ι) :
    (steps i).run m = (steps j).run m := by
  rcases h with ⟨F, ⟨k, hk, rfl⟩, hbad⟩ | ⟨outcome, after, -, halike, hrun⟩
  · exact absurd (eventually_pure.1 hbad) (hstrict k hk)
  · obtain ⟨r, rfl⟩ := (all_uniform strict).exists_eq halike
    have hall := eventually_top.1 hrun
    exact (hall i).trans (hall j).symm

/-- What is watched holds always, if the strict watch does not give up. -/
theorem Machine.always_of_watches (strict : Option (Eval Value))
    (Fits : List Activity → Machine → Prop) {check : Check} {bound : Nat} {root : Node}
    (h : Node.Watches (.all {strict}) check id Fits) (hfits : Fits [] m)
    (hstrict : ((Construct.program (Node.watch check strict bound []) scope root).run m).1 ≠
      .error .unreachable) : m.Always check bound scope root := by
  intro alarm
  have hagree : (Versions.all {strict}).Agree m fun alarm =>
      Construct.program (Node.watch check alarm bound []) scope root :=
    Construct.program_agree (.refl _) (fun _ he => he)
      (Node.watch_agree (all_uniform _) trivial h bound hfits root)
  rw [← Node.watch_none check bound []]
  refine hagree.run_eq (fun i hi => ?_) (some alarm) none
  obtain rfl := Set.mem_singleton_iff.1 hi
  exact hstrict

end BpScript
