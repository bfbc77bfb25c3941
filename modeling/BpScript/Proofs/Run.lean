import BpScript.Eval.Node

/-!
# How steps run

A step of evaluation takes a state to an outcome and a state, whatever the outcome is.  This file
opens the monad once: every later proof argues about `step.run m` through the equations below and
never unfolds a bind.

* `Step.run_bind`, `Step.run_get`, … — what the monad's own operations do.
* `Eval.run_observe`, `Eval.run_inContext`, … — what the brackets around calls, modules and loop
  bodies do: they change the place, run a step, and put the place back.
* `Machine.SamePlace` — two states with the same calls, loops and imports in progress.
-/

namespace BpScript

namespace Step

variable {σ ε α β : Type}

/-- A sequence runs its first step, and goes on only from a value. -/
theorem run_bind (step : ExceptT ε (StateM σ) α) (k : α → ExceptT ε (StateM σ) β) (m : σ) :
    (step >>= k).run m = match step.run m with
      | (.ok a, m') => (k a).run m'
      | (.error e, m') => (.error e, m') := by
  show ExceptT.bindCont k (step.run m).1 (step.run m).2 = _
  rcases step.run m with ⟨_ | _, _⟩ <;> rfl

theorem run_get (m : σ) : (get : ExceptT ε (StateM σ) σ).run m = (.ok m, m) := rfl

theorem run_modify (f : σ → σ) (m : σ) :
    (modify f : ExceptT ε (StateM σ) Unit).run m = (.ok (), f m) := rfl

theorem run_modifyGet (f : σ → α × σ) (m : σ) :
    (modifyGet f : ExceptT ε (StateM σ) α).run m = (.ok (f m).1, (f m).2) := rfl

/-- A sequence whose first step ends with a value goes on from there. -/
theorem run_bind_ok {step : ExceptT ε (StateM σ) α} {k : α → ExceptT ε (StateM σ) β} {m m' : σ}
    {a : α} (h : step.run m = (.ok a, m')) : (step >>= k).run m = (k a).run m' := by
  rw [run_bind, h]

/-- A sequence whose first step fails ends there. -/
theorem run_bind_error {step : ExceptT ε (StateM σ) α} {k : α → ExceptT ε (StateM σ) β}
    {m m' : σ} {e : ε} (h : step.run m = (.error e, m')) :
    (step >>= k).run m = (.error e, m') := by
  rw [run_bind, h]

/-- A sequence that ends with a value comes through its first step. -/
theorem run_bind_eq_ok {step : ExceptT ε (StateM σ) α} {k : α → ExceptT ε (StateM σ) β}
    {m m' : σ} {b : β} (h : (step >>= k).run m = (.ok b, m')) :
    ∃ a m₁, step.run m = (.ok a, m₁) ∧ (k a).run m₁ = (.ok b, m') := by
  rcases hstep : step.run m with ⟨e | a, m₁⟩
  · rw [run_bind_error hstep] at h
    cases h
  · exact ⟨a, m₁, rfl, run_bind_ok hstep ▸ h⟩

/-- Discarding a value is going on without it. -/
theorem discard_eq_bind (step : ExceptT ε (StateM σ) α) :
    Functor.discard step = step >>= fun _ => pure () := by
  rw [Functor.discard, LawfulFunctor.map_const]
  exact map_eq_pure_bind _ step

end Step

/-! ## The place of a state

Calls, modules and loop bodies are brackets: they move to another place, run a step there, and move
back.  What has to be shown of them is that they move back whatever the outcome is.
-/

/-- The same calls, loops and imports are in progress. -/
structure Machine.SamePlace (m m' : Machine) : Prop where
  contexts : m'.contexts = m.contexts
  loopDepth : m'.loopDepth = m.loopDepth
  importing : m'.importing = m.importing

namespace Machine.SamePlace

theorem refl (m : Machine) : m.SamePlace m := ⟨rfl, rfl, rfl⟩

theorem trans {a b c : Machine} (hab : a.SamePlace b) (hbc : b.SamePlace c) : a.SamePlace c :=
  ⟨hbc.contexts.trans hab.contexts, hbc.loopDepth.trans hab.loopDepth,
    hbc.importing.trans hab.importing⟩

/-- The store is no part of the place. -/
theorem of_store {m m' : Machine} {s : Store} (h : Machine.SamePlace { m with store := s } m') :
    m.SamePlace m' :=
  ⟨h.contexts, h.loopDepth, h.importing⟩

end Machine.SamePlace

namespace Machine

/-- The state inside a call or module of this name. -/
def entering (m : Machine) (name : String) : Machine :=
  { m with contexts := m.contexts.push name, loopDepth := 0 }

/-- The state behind a call or module that was entered with `loopDepth` loops around it. -/
def leaving (m : Machine) (loopDepth : Nat) : Machine :=
  { m with contexts := m.contexts.pop, loopDepth }

/-- Leaving undoes entering. -/
theorem SamePlace.leaving {m m' : Machine} {name : String}
    (h : (m.entering name).SamePlace m') : m.SamePlace (m'.leaving m.loopDepth) := by
  refine ⟨?_, rfl, h.importing⟩
  show m'.contexts.pop = m.contexts
  rw [h.contexts]
  exact Array.pop_push

/-- The state inside one more loop. -/
def enteringLoop (m : Machine) : Machine :=
  { m with loopDepth := m.loopDepth + 1 }

/-- The state behind the innermost loop. -/
def leavingLoop (m : Machine) : Machine :=
  { m with loopDepth := m.loopDepth - 1 }

/-- Leaving a loop undoes entering it. -/
theorem SamePlace.leavingLoop {m m' : Machine} (h : m.enteringLoop.SamePlace m') :
    m.SamePlace m'.leavingLoop := by
  refine ⟨h.contexts, ?_, h.importing⟩
  show m'.loopDepth - 1 = m.loopDepth
  rw [h.loopDepth]
  rfl

/-- The state during the import of the module at a path. -/
def enteringImport (m : Machine) (path : String) : Machine :=
  { m with importing := path :: m.importing }

/-- The state behind the innermost import. -/
def leavingImport (m : Machine) : Machine :=
  { m with importing := m.importing.tail }

/-- Leaving an import undoes entering it. -/
theorem SamePlace.leavingImport {m m' : Machine} {path : String}
    (h : (m.enteringImport path).SamePlace m') : m.SamePlace m'.leavingImport := by
  refine ⟨h.contexts, h.loopDepth, ?_⟩
  show m'.importing.tail = m.importing
  rw [h.importing]
  rfl

end Machine

namespace Eval

variable {α : Type}

/-- Observing a step turns whatever it ends with into a value. -/
theorem run_observe (step : Eval α) (m : Machine) :
    (observe step).run m = (.ok (step.run m).1, (step.run m).2) := rfl

theorem run_conclude (outcome : Except Signal α) (m : Machine) :
    (conclude outcome).run m = (outcome, m) := by
  cases outcome <;> rfl

theorem run_inContext (name : String) (step : Eval α) (m : Machine) :
    (inContext name step).run m =
      (.ok (step.run (m.entering name)).1, (step.run (m.entering name)).2.leaving m.loopDepth) :=
  rfl

theorem run_whileImporting (path : String) (step : Eval α) (m : Machine) :
    (whileImporting path step).run m =
      ((step.run (m.enteringImport path)).1,
        (step.run (m.enteringImport path)).2.leavingImport) := by
  show (conclude (step.run (m.enteringImport path)).1).run
      (step.run (m.enteringImport path)).2.leavingImport = _
  exact run_conclude _ _

/-- How an iteration ends, from how its body ended. -/
def iterationOutcome : Except Signal Value → Except Signal Iteration
  | .ok value => .ok (.value value)
  | .error .continued => .ok .skipped
  | .error .broke => .ok .stopped
  | .error signal => .error signal

theorem run_iteration (body : Eval Value) (m : Machine) :
    (iteration body).run m =
      (iterationOutcome (body.run m.enteringLoop).1, (body.run m.enteringLoop).2.leavingLoop) := by
  rcases h : body.run m.enteringLoop with ⟨outcome, m'⟩
  have hobserve : (observe body).run m.enteringLoop = (.ok outcome, m') := by
    rw [run_observe, h]
  rw [iteration, Step.run_bind_ok (Step.run_modify _ m)]
  show (observe body >>= _).run m.enteringLoop = _
  rw [Step.run_bind_ok hobserve, Step.run_bind_ok (Step.run_modify _ m')]
  rcases outcome with (_ | _ | _ | _ | _ | _) | _ <;> rfl

/-- Pinning faults to a place changes neither the state nor a value. -/
theorem run_located (span : Span) (action : Action α) (m : Machine) :
    (located span action).run m =
      ((action.run m).1.mapError fun fault => .error (fault.locate span), (action.run m).2) := by
  show (fun p : Except Fault α × Machine => (p.1.mapError _, p.2)) (action.run m) = _
  rfl

end Eval

end BpScript
