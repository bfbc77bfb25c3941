import Mathlib.Logic.Function.Iterate
import BpScript.Proofs.Reach
import BpScript.Proofs.ScopeFrame

/-!
# What loops do

The evaluator runs all loops alike and lets each carry something along: the next number, the next
index, the entries that are left.  Here is what the loops mean, iteration by iteration, without
anything that is carried along.  How the `k`-th iteration begins depends on `k`, on what the loop
was entered with and on the state at this point, and on nothing that the body could have changed
behind the loop's back: a count goes on from its own number and not from the variable, a list is
looked at as it is, and an object as it was.

* `Loop.Kind`, `Loop.Kind.head` — the four loops, and how their iterations begin.
* `Loop.Iterated` — the first iterations, which all go on to the next one.
* `Loop.Course` — all iterations, up to the one that does not go on.
* `Loop.Ending.result` — what the loop gives then.
* `Loop.run_iff_course` — the evaluator's loop, whatever it carries along.
* `Loop.Kind.Exhausted` — what is known of a loop that has run to its end.
* **`loops_follow_course`** — the four loops.
-/

namespace BpScript

namespace Loop

/-! ## Iterations -/

/-- What a loop was entered with. -/
inductive Kind where
  | count (name : String) (start last step : Float)
  | list (name : String) (id : ListId)
  | object (key value : String) (entries : Table String Value)
  | whilst (condition : Eval Value)

/-- The number of an iteration: the step is added to the start once for each iteration before. -/
def counter (start step : Float) (k : Nat) : Float :=
  (· + step)^[k] start

/-- The test of a count; the sign of the step says which way it goes. -/
def passes (last step i : Float) : Bool :=
  if 0 ≤ step then i < last else last < i

/-- How the `k`-th iteration begins: whether there is one, and the state with the variables bound.
Only the condition of a `while` can fail. -/
def Kind.head (scope : ScopeId) : Kind → Nat → Machine → Except Signal Bool × Machine
  | .count name start last step, k, m =>
    let i := counter start step k
    (.ok (passes last step i), { m with store := m.store.bind scope name ⟨.number i, false⟩ })
  | .list name id, k, m =>
    match (m.store.items id)[k]? with
    | some item => (.ok true, { m with store := m.store.bind scope name ⟨item, false⟩ })
    | none => (.ok false, m)
  | .object key value entries, k, m =>
    match entries[k]? with
    | some (name, item) =>
      let named := m.store.bind scope key ⟨.text name, false⟩
      (.ok true, { m with store := named.bind scope value ⟨item, false⟩ })
    | none => (.ok false, m)
  | .whilst condition, _, m =>
    ((condition.run m).1.map Value.isTruthy, (condition.run m).2)

/-- Runs the body of a loop once, with one more loop around it. -/
def once (body : Eval Value) (m : Machine) : Except Signal Value × Machine :=
  ((body.run m.enteringLoop).1, (body.run m.enteringLoop).2.leavingLoop)

section

variable (head : Nat → Machine → Except Signal Bool × Machine) (body : Eval Value) (m : Machine)

/-- The first `n` iterations of a loop that starts in `m` go on to the next one.  The values are
those of the iterations that were not skipped, in order. -/
inductive Iterated : Nat → List Value → Machine → Prop where
  | start : Iterated 0 [] m
  | value {n : Nat} {values : List Value} {v : Value} {m₁ m₂ m₃ : Machine} :
    Iterated n values m₁ → head n m₁ = (.ok true, m₂) → once body m₂ = (.ok v, m₃) →
    Iterated (n + 1) (values ++ [v]) m₃
  | skipped {n : Nat} {values : List Value} {m₁ m₂ m₃ : Machine} :
    Iterated n values m₁ → head n m₁ = (.ok true, m₂) → once body m₂ = (.error .continued, m₃) →
    Iterated (n + 1) values m₃

/-- Why a loop has ended. -/
inductive Ending where
  | completed (values : List Value)
  | broke
  | left (signal : Signal)

/-- After `n` iterations the loop ends: there is no further one, or the next one does not go on. -/
inductive Course : Nat → Ending → Machine → Prop where
  | completed {n : Nat} {values : List Value} {m₁ m₂ : Machine} :
    Iterated head body m n values m₁ → head n m₁ = (.ok false, m₂) →
    Course n (.completed values) m₂
  | interrupted {n : Nat} {values : List Value} {signal : Signal} {m₁ m₂ : Machine} :
    Iterated head body m n values m₁ → head n m₁ = (.error signal, m₂) → Course n (.left signal) m₂
  | broke {n : Nat} {values : List Value} {m₁ m₂ m₃ : Machine} :
    Iterated head body m n values m₁ → head n m₁ = (.ok true, m₂) →
    once body m₂ = (.error .broke, m₃) → Course n .broke m₃
  | left {n : Nat} {values : List Value} {signal : Signal} {m₁ m₂ m₃ : Machine} :
    Iterated head body m n values m₁ → head n m₁ = (.ok true, m₂) →
    once body m₂ = (.error signal, m₃) → signal ≠ .broke → signal ≠ .continued →
    Course n (.left signal) m₃

end

/-- What a loop gives once it has ended, and the state behind it. -/
def Ending.result (isBlock : Bool) : Ending → Machine → Except Signal Value × Machine
  | .completed values, m =>
    if isBlock then (.ok .null, m)
    else
      let made := m.store.newList values.toArray
      (.ok (.list made.1), { m with store := made.2 })
  | .broke, m => (.ok .null, m)
  | .left signal, m => (.error signal, m)

/-! ## The evaluator's loop -/

section

variable {σ : Type} {step : σ → Eval (Option σ)} {carried : Nat → σ}
  {head : Nat → Machine → Except Signal Bool × Machine} {body : Eval Value} {m m₁ m₂ m₃ : Machine}
  {bound n : Nat} {values : List Value} {isBlock : Bool}

/-- Before its `k`-th iteration the loop carries `carried k` along, and begins it as `head` says. -/
def Follows (step : σ → Eval (Option σ)) (carried : Nat → σ)
    (head : Nat → Machine → Except Signal Bool × Machine) : Prop :=
  ∀ k m, (step (carried k)).run m =
    ((head k m).1.map fun goesOn => if goesOn then some (carried (k + 1)) else none, (head k m).2)

theorem iterationOutcome_of_ne {signal : Signal} (hbroke : signal ≠ .broke)
    (hcontinued : signal ≠ .continued) :
    Eval.iterationOutcome (.error signal) = .error signal := by
  cases signal with
  | broke => exact absurd rfl hbroke
  | continued => exact absurd rfl hcontinued
  | _ => rfl

section

variable (h : Follows step carried head)

include h

theorem run_of_completed {done : Array Value} (hhead : head n m = (.ok false, m₁)) :
    (run step body (bound + 1) (carried n) done).run m = (.ok (some done), m₁) := by
  have hstep : (step (carried n)).run m = (.ok none, m₁) := by
    rw [h, hhead]
    rfl
  rw [run, Step.run_bind_ok hstep]
  rfl

theorem run_of_interrupted {done : Array Value} {signal : Signal}
    (hhead : head n m = (.error signal, m₁)) :
    (run step body (bound + 1) (carried n) done).run m = (.error signal, m₁) := by
  have hstep : (step (carried n)).run m = (.error signal, m₁) := by
    rw [h, hhead]
    rfl
  rw [run, Step.run_bind_error hstep]

/-- An iteration that begins goes on as its body ends. -/
theorem run_of_head {done : Array Value} (hhead : head n m = (.ok true, m₁))
    {outcome : Except Signal Value} (honce : once body m₁ = (outcome, m₂)) :
    (run step body (bound + 1) (carried n) done).run m =
      match Eval.iterationOutcome outcome with
      | .ok (.value v) => (run step body bound (carried (n + 1)) (done.push v)).run m₂
      | .ok .skipped => (run step body bound (carried (n + 1)) done).run m₂
      | .ok .stopped => (.ok none, m₂)
      | .error signal => (.error signal, m₂) := by
  have hstep : (step (carried n)).run m = (.ok (some (carried (n + 1))), m₁) := by
    rw [h, hhead]
    rfl
  have hbody : (Eval.iteration body).run m₁ = (Eval.iterationOutcome outcome, m₂) := by
    cases honce
    exact Eval.run_iteration body m₁
  rw [run, Step.run_bind_ok hstep]
  show (Eval.iteration body >>= _).run m₁ = _
  cases hend : Eval.iterationOutcome outcome with
  | error signal =>
    rw [hend] at hbody
    exact Step.run_bind_error hbody
  | ok iteration =>
    rw [hend] at hbody
    rw [Step.run_bind_ok hbody]
    cases iteration <;> rfl

/-- Behind the first iterations the evaluator's loop is where the loop is. -/
theorem run_of_iterated (hfirst : Iterated head body m n values m₁) (bound : Nat) :
    (run step body (n + bound) (carried 0) #[]).run m =
      (run step body bound (carried n) values.toArray).run m₁ := by
  induction hfirst generalizing bound with
  | start => rw [Nat.zero_add]
  | @value n values v _ _ _ _ hhead honce ih =>
    rw [Nat.succ_add_eq_add_succ, ih, run_of_head h hhead honce]
    simp [Eval.iterationOutcome]
  | skipped _ hhead honce ih =>
    rw [Nat.succ_add_eq_add_succ, ih, run_of_head h hhead honce]
    rfl

/-- **A loop gives what its course gives**, if the bound leaves room for it. -/
theorem run_of_course {ending : Ending} (hcourse : Course head body m n ending m₁)
    (hbound : n < bound) :
    (run step body bound (carried 0) #[] >>= value isBlock).run m = ending.result isBlock m₁ := by
  obtain ⟨rest, rfl⟩ : ∃ rest, bound = n + (rest + 1) := ⟨bound - n - 1, by omega⟩
  cases hcourse with
  | completed hfirst hhead =>
    rw [Step.run_bind_ok ((run_of_iterated h hfirst _).trans (run_of_completed h hhead))]
    cases isBlock <;> rfl
  | interrupted hfirst hhead =>
    rw [Step.run_bind_error ((run_of_iterated h hfirst _).trans (run_of_interrupted h hhead))]
    rfl
  | broke hfirst hhead honce =>
    rw [Step.run_bind_ok ((run_of_iterated h hfirst _).trans (run_of_head h hhead honce))]
    rfl
  | left hfirst hhead honce hbroke hcontinued =>
    have hrun := (run_of_iterated h hfirst (rest + 1)).trans (run_of_head h hhead honce)
    rw [iterationOutcome_of_ne hbroke hcontinued] at hrun
    rw [Step.run_bind_error hrun]
    rfl

/-- A loop that goes on has come to its bound. -/
theorem run_of_bound (hfirst : Iterated head body m bound values m₁) :
    (run step body bound (carried 0) #[] >>= value isBlock).run m = (.error .exhausted, m₁) := by
  have hrun := run_of_iterated h hfirst 0
  rw [Nat.add_zero] at hrun
  rw [Step.run_bind_error (hrun.trans rfl)]

end

/-- Within a bound a loop ends, or goes on after as many iterations. -/
theorem course_or_iterated (head : Nat → Machine → Except Signal Bool × Machine) (body : Eval Value)
    (m : Machine) : ∀ bound : Nat,
      (∃ n < bound, ∃ ending m', Course head body m n ending m') ∨
        ∃ values m', Iterated head body m bound values m'
  | 0 => .inr ⟨[], m, .start⟩
  | bound + 1 => by
    rcases course_or_iterated head body m bound with
      ⟨n, hn, ending, m', hcourse⟩ | ⟨values, m₁, hfirst⟩
    · exact .inl ⟨n, Nat.lt_succ_of_lt hn, ending, m', hcourse⟩
    · rcases hhead : head bound m₁ with ⟨signal | _ | _, m₂⟩
      · exact .inl ⟨bound, Nat.lt_succ_self _, _, _, .interrupted hfirst hhead⟩
      · exact .inl ⟨bound, Nat.lt_succ_self _, _, _, .completed hfirst hhead⟩
      · rcases honce : once body m₂ with ⟨signal | v, m₃⟩
        · by_cases hcontinued : signal = .continued
          · exact .inr ⟨_, _, .skipped hfirst hhead (hcontinued ▸ honce)⟩
          · by_cases hbroke : signal = .broke
            · exact .inl ⟨bound, Nat.lt_succ_self _, _, _, .broke hfirst hhead (hbroke ▸ honce)⟩
            · exact .inl ⟨bound, Nat.lt_succ_self _, _, _,
                .left hfirst hhead honce hbroke hcontinued⟩
        · exact .inr ⟨_, _, .value hfirst hhead honce⟩

/-- **The evaluator's loop is the loop**, whatever it carries along: it ends as the loop does, or
the bound was too low. -/
theorem run_iff_course (h : Follows step carried head) {r : Except Signal Value} {m' : Machine} :
    (run step body bound (carried 0) #[] >>= value isBlock).run m = (r, m') ↔
      (∃ n < bound, ∃ ending m₁, Course head body m n ending m₁ ∧
        ending.result isBlock m₁ = (r, m')) ∨
      (r = .error .exhausted ∧ ∃ values, Iterated head body m bound values m') := by
  constructor
  · intro hrun
    rcases course_or_iterated head body m bound with
      ⟨n, hn, ending, m₁, hcourse⟩ | ⟨values, m₁, hfirst⟩
    · exact .inl ⟨n, hn, ending, m₁, hcourse, (run_of_course h hcourse hn).symm.trans hrun⟩
    · cases (run_of_bound h hfirst).symm.trans hrun
      exact .inr ⟨rfl, values, hfirst⟩
  · rintro (⟨n, hn, ending, m₁, hcourse, hresult⟩ | ⟨rfl, values, hfirst⟩)
    · exact (run_of_course h hcourse hn).trans hresult
    · exact run_of_bound h hfirst

end

/-! ## The four loops -/

section

variable {scope : ScopeId} {m : Machine}

/-- A count carries the number of the next iteration along. -/
theorem countStep_follows (name : String) (start last step : Float) :
    Follows (countStep scope name last step) (counter start step)
      ((Kind.count name start last step).head scope) := by
  intro k m
  have hnext : counter start step (k + 1) = counter start step k + step :=
    Function.iterate_succ_apply' _ k start
  rw [hnext]
  rfl

/-- A loop over a list carries the next index along, which is the number of the iteration. -/
theorem listStep_follows (name : String) (id : ListId) :
    Follows (listStep scope name id) (fun k => k) ((Kind.list name id).head scope) := by
  intro k m
  rw [listStep, Step.run_bind_ok (Step.run_get m), Kind.head]
  cases (m.store.items id)[k]? with
  | some item => rfl
  | none => rfl

/-- A loop over an object carries the entries along that are left. -/
theorem objectStep_follows (key value : String) (entries : Table String Value) :
    Follows (objectStep scope key value) (fun k => entries.drop k)
      ((Kind.object key value entries).head scope) := by
  intro k m
  simp only [Kind.head]
  split
  · next name item hentry =>
    obtain ⟨hk, hget⟩ := List.getElem?_eq_some_iff.1 hentry
    rw [List.drop_eq_getElem_cons hk, hget]
    rfl
  · next hentry =>
    rw [List.drop_eq_nil_of_le (List.getElem?_eq_none_iff.1 hentry)]
    rfl

/-- A `while` carries nothing along. -/
theorem whileStep_follows (condition : Eval Value) :
    Follows (whileStep condition) (fun _ => ()) ((Kind.whilst condition).head scope) := by
  intro k m
  rcases hrun : condition.run m with ⟨signal | v, m₁⟩
  · rw [whileStep, Step.run_bind_error hrun]
    simp only [Kind.head, hrun]
    rfl
  · rw [whileStep, Step.run_bind_ok hrun]
    simp only [Kind.head, hrun]
    rfl

/-- A node that is a loop is evaluated in `m`, and the loop is entered: the evaluation of what is
looked at once has ended in the last state, with what the loop is entered with.  The entries of an
object are those that it has then. -/
inductive Enters (visit : Visit) (scope : ScopeId) (m : Machine) :
    Form → Kind → Body → Machine → Prop where
  | count {name : Ident} {first last : Node} {step : Option Node} {body : Body}
    {start stop stride : Float} {m₁ m₂ m₃ : Machine} :
    (Construct.numberFor visit scope first).run m = (.ok start, m₁) →
    (Construct.numberFor visit scope last).run m₁ = (.ok stop, m₂) →
    (step.elim (pure 1) (Construct.numberFor visit scope)).run m₂ = (.ok stride, m₃) →
    Enters visit scope m (.forCount name first last step body)
      (.count name.name start stop stride) body m₃
  | list {name : Ident} {items : Node} {body : Body} {id : ListId} {m₁ : Machine} :
    (visit scope items).run m = (.ok (.list id), m₁) →
    Enters visit scope m (.forList name items body) (.list name.name id) body m₁
  | object {key value : Ident} {entries : Node} {body : Body} {id : ObjectId} {m₁ : Machine} :
    (visit scope entries).run m = (.ok (.object id), m₁) →
    Enters visit scope m (.forObject key value entries body)
      (.object key.name value.name (m₁.store.entries id)) body m₁
  | whilst {condition : Node} {body : Body} :
    Enters visit scope m (.whileLoop condition body) (.whilst (visit scope condition)) body m

/-- A loop that is entered is run by a step that begins its iterations as it means. -/
theorem Enters.exists_follows {visit : Visit} {node : Node} {kind : Kind} {body : Body}
    {m₀ : Machine} (h : Enters visit scope m node.form kind body m₀) (bound : Nat) :
    ∃ (σ : Type) (step : σ → Eval (Option σ)) (carried : Nat → σ),
      Follows step carried (kind.head scope) ∧
        (Node.evalForm bound visit scope node).run m =
          (run step (visit scope body.node) bound (carried 0) #[] >>=
            value body.isBlock).run m₀ := by
  obtain ⟨form, span⟩ := node
  cases h with
  | @count name _ _ step body start stop stride _ m₂ _ hfirst hlast hstep =>
    refine ⟨_, _, _, countStep_follows name.name start stop stride, ?_⟩
    show (Construct.forCount visit bound scope name _ _ step body).run m = _
    rw [Construct.forCount, Step.run_bind_ok hfirst, Step.run_bind_ok hlast]
    cases step with
    | none =>
      cases hstep
      rfl
    | some node =>
      have hstride : (Construct.numberFor visit scope node).run m₂ = (.ok stride, m₀) := hstep
      rw [Step.run_bind_ok hstride]
      rfl
  | @list name _ body id _ hitems =>
    refine ⟨_, _, _, listStep_follows name.name id, ?_⟩
    show (Construct.forList visit bound scope name _ body).run m = _
    rw [Construct.forList, Step.run_bind_ok hitems]
  | @object key value _ body id _ hentries =>
    refine ⟨_, _, _, objectStep_follows key.name value.name (m₀.store.entries id), ?_⟩
    show (Construct.forObject visit bound scope key value _ body).run m = _
    rw [Construct.forObject, Step.run_bind_ok hentries]
    rfl
  | whilst => exact ⟨_, _, _, whileStep_follows _, rfl⟩

/-! ## Loops that run to their end -/

/-- All iterations that there were have begun. -/
theorem Iterated.head_of_lt {head : Nat → Machine → Except Signal Bool × Machine}
    {body : Eval Value} {n : Nat} {values : List Value} {m' : Machine}
    (h : Iterated head body m n values m') {k : Nat} (hk : k < n) :
    ∃ m₁ m₂, head k m₁ = (.ok true, m₂) := by
  induction h with
  | start => exact absurd hk (Nat.not_lt_zero k)
  | value _ hhead _ ih | skipped _ hhead _ ih =>
    rcases Nat.lt_succ_iff_lt_or_eq.1 hk with hlt | rfl
    · exact ih hlt
    · exact ⟨_, _, hhead⟩

/-- What is known when a loop has come to its end after `n` iterations, of the state where no
further one has begun and of the state behind the loop. -/
def Kind.Exhausted (scope : ScopeId) (n : Nat) (last after : Machine) : Kind → Prop
  | .count name start stop step =>
    (∀ k < n, passes stop step (counter start step k) = true) ∧
      passes stop step (counter start step n) = false ∧
      (after.store.Holds (.scope scope) →
        (after.store.bindings scope).get? name = some ⟨.number (counter start step n), false⟩)
  | .list _ id => (last.store.items id).size ≤ n
  | .object _ _ entries => entries.length = n
  | .whilst _ => True

/-- The list of the values is made behind the loop, and leaves all scopes alone. -/
theorem Ending.scopes_result (ending : Ending) (isBlock : Bool) (m : Machine) :
    (ending.result isBlock m).2.store.scopes = m.store.scopes := by
  cases ending with
  | completed values => cases isBlock <;> rfl
  | broke => rfl
  | left signal => rfl

theorem Course.exhausted {kind : Kind} {body : Eval Value} {n : Nat} {values : List Value}
    {m' : Machine} {isBlock : Bool}
    (h : Course (kind.head scope) body m n (.completed values) m') :
    kind.Exhausted scope n m' ((Ending.completed values).result isBlock m').2 := by
  have hscopes := (Ending.completed values).scopes_result isBlock m'
  generalize ((Ending.completed values).result isBlock m').2 = after at hscopes
  cases h with
  | completed hfirst hhead =>
    cases kind with
    | count name start stop step =>
      obtain ⟨hfails, rfl⟩ := Prod.mk.inj hhead
      refine ⟨fun k hk => ?_, Except.ok.inj hfails, fun hholds => ?_⟩
      · obtain ⟨m₂, m₃, hbegins⟩ := hfirst.head_of_lt hk
        exact Except.ok.inj (Prod.mk.inj hbegins).1
      · rw [Store.Holds, hscopes] at hholds
        rw [Store.bindings_eq_of_get?_eq (congrArg (Heap.get? · scope.index) hscopes),
          Store.bindings_bind (((Store.writes_bind _ _ _).holds_iff (.scope scope)).1 hholds),
          Table.get?_set, if_pos rfl]
    | list name id =>
      rw [Kind.head] at hhead
      split at hhead
      · cases hhead
      · next hitem =>
        cases hhead
        exact Array.getElem?_eq_none_iff.1 hitem
    | object key value entries =>
      have hle : n ≤ entries.length := by
        by_contra hlt
        obtain ⟨m₂, m₃, hbegins⟩ := hfirst.head_of_lt (Nat.lt_of_not_le hlt)
        rw [Kind.head, List.getElem?_eq_none (Nat.le_refl _)] at hbegins
        cases hbegins
      rw [Kind.head] at hhead
      split at hhead
      · cases hhead
      · next hentry => exact Nat.le_antisymm (List.getElem?_eq_none_iff.1 hentry) hle
    | whilst condition => trivial

/-- Nodes are evaluated in scopes that are there, and no scope is ever removed. -/
theorem evalForm_holds_scope {node : Node} (hscope : m.store.Holds (.scope scope))
    (bound depth : Nat) :
    ((Node.evalForm bound (Node.evalWithin depth) scope node).run m).2.store.Holds
      (.scope scope) := by
  let after := ((Node.evalForm bound (Node.evalWithin depth) scope node).run m).2
  have hruns : Discipline.scopes.Runs () m.store scope node := trivial
  have hv : Discipline.scopes.Visits (Node.evalWithin depth) :=
    Node.evalWithin_keeps _ Discipline.scopes_open depth
  have hlater : Discipline.scopes.Later () scope m after :=
    (Node.evalForm_keeps Discipline.scopes_open hv hruns trivial).1
  exact Nat.lt_of_lt_of_le hscope hlater.grows.size_le

end

end Loop

open Loop

/-- **Loops follow their course**, whatever their bodies do.  How the `k`-th iteration begins
depends on the kind of the loop, on `k` and on the state at this point.  A value and a `continue` go
on to the next iteration, a `break` ends the loop with null, and every other signal leaves it at
once; a loop that runs to its end gives null, or the list of the values of its iterations.  The
evaluator gives this within its bound, and nothing else.  When a count runs to its end, its variable
is left at the first number that fails the test, in the scope of the loop, which evaluation does not
remove.  A list then has no element that was not looked at, and all the entries that the object had
at the start were gone through. -/
theorem loops_follow_course {visit : Visit} {scope : ScopeId} {m m₀ : Machine} {node : Node}
    {kind : Kind} {body : Body} (h : Loop.Enters visit scope m node.form kind body m₀)
    (bound : Nat) :
    (∀ (r : Except Signal Value) (m' : Machine),
      (Node.evalForm bound visit scope node).run m = (r, m') ↔
        (∃ n < bound, ∃ ending m₁,
          Course (kind.head scope) (visit scope body.node) m₀ n ending m₁ ∧
            ending.result body.isBlock m₁ = (r, m')) ∨
        (r = .error .exhausted ∧ ∃ values,
          Iterated (kind.head scope) (visit scope body.node) m₀ bound values m')) ∧
    (∀ (n : Nat) (values : List Value) (m₁ : Machine),
      Course (kind.head scope) (visit scope body.node) m₀ n (.completed values) m₁ →
        kind.Exhausted scope n m₁ ((Ending.completed values).result body.isBlock m₁).2) ∧
    (∀ depth : Nat, visit = Node.evalWithin depth → m.store.Holds (.scope scope) →
      ((Node.evalForm bound visit scope node).run m).2.store.Holds (.scope scope)) := by
  refine ⟨fun r m' => ?_, fun n values m₁ => Course.exhausted, ?_⟩
  · obtain ⟨σ, step, carried, hfollows, hrun⟩ := h.exists_follows bound
    rw [hrun]
    exact run_iff_course hfollows
  · rintro depth rfl hscope
    exact evalForm_holds_scope hscope bound depth

/-- A loop over a list of two elements, with a text for its body, gives a list of two texts. -/
theorem list_loop_follows_course :
    let m : Machine :=
      { Machine.start default .memory with store := (Store.empty.newScope ⟨[], none⟩).2 }
    let x : Ident := ⟨"x", default⟩
    let items : Node := .mk (.list [.mk (.boolean true) default, .mk .null default]) default
    let body : Body := .mk (.mk (.text "ab") default) false
    let r := (Node.evalForm 4 (Node.evalWithin 3) ⟨0⟩ (.mk (.forList x items body) default)).run m
    ∃ last : Machine, r = (Ending.completed [.text "ab", .text "ab"]).result false last ∧
      (last.store.items ⟨0⟩).size ≤ 2 ∧ r.2.store.Holds (.scope ⟨0⟩) := by
  intro m x items body r
  let head := (Kind.list "x" ⟨0⟩).head ⟨0⟩
  let visit := Node.evalWithin 3 ⟨0⟩
  let node : Node := .mk (.forList x items body) default
  let m₀ : Machine := ((visit items).run m).2
  have henters : Loop.Enters (Node.evalWithin 3) ⟨0⟩ m node.form (.list "x" ⟨0⟩) body m₀ :=
    .list rfl
  obtain ⟨hrun, hends, hscope⟩ := loops_follow_course henters 4
  let m₁ : Machine := (head 0 m₀).2
  let m₂ : Machine := (once (visit body.node) m₁).2
  let m₃ : Machine := (head 1 m₂).2
  let m₄ : Machine := (once (visit body.node) m₃).2
  have hfirst : Iterated head (visit body.node) m₀ 1 [.text "ab"] m₂ :=
    .value .start (show head 0 m₀ = (.ok true, m₁) from rfl) rfl
  have hsecond : Iterated head (visit body.node) m₀ 2 [.text "ab", .text "ab"] m₄ :=
    .value hfirst (show head 1 m₂ = (.ok true, m₃) from rfl) rfl
  have hcourse : Course head (visit body.node) m₀ 2 (.completed [.text "ab", .text "ab"]) m₄ :=
    .completed hsecond rfl
  exact ⟨m₄, (hrun _ _).2 (.inl ⟨2, by decide, _, _, hcourse, rfl⟩), hends _ _ _ hcourse,
    hscope 3 rfl Nat.zero_lt_one⟩

end BpScript
