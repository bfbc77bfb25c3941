import BpScript.Proofs.Versions

/-!
# Events of a run

A run evaluates nodes in scopes, and it makes scopes for calls and for modules.  To say of a run
that it makes its scopes in a certain way only, or that it evaluates its nodes in certain scopes
only, a guard is put in front of each of these events.  If nothing changes however the guard sounds
its alarm, the guard has let all of them pass.

* `Event` — what a run does, as far as it is guarded.
* `Node.evalGuarded` — evaluation with a guard in front of each event.
* `Machine.Meets` — all events of a run are as it is asked.
* `Discipline.Guarded`, `Node.evalGuarded_keeps` — guarded runs keep a discipline that knows what
  the guard lets pass.
* `Node.evalGuarded_agree` — guarded runs are versions of one another.
* `Machine.ComesTo` — the run comes to an event of a kind.  What it does not come to, it need not be
  guarded from (`Machine.meets_of_not_comesTo`).
* **`Machine.meets_of_discipline`** — what follows for the nodes of a run from what it makes its
  scopes for.
* `Machine.meets_of_open` — the same, if it does not matter what scopes are made for.
-/

namespace BpScript

open Filter Versions Discipline

/-- What a run does. -/
inductive Event where
  /-- A node is evaluated in a scope. -/
  | node (scope : ScopeId) (node : Node)
  /-- A scope is made, and used for a call or a module. -/
  | made (scope : ScopeId) (origin : Origin)

/-! ## Guarded runs -/

namespace Node

variable (guard : Event → Eval Unit)

/-- Runs a function on one argument for each parameter.  The scope of a function of a script is the
next one that is made. -/
def guardApply (visit : Visit) (f : Callable) (args : List Value) (span : Span) : Eval Value :=
  match f with
  | .closure c => do
    guard (.made ⟨(← get).store.scopes.size⟩ (.call c))
    Construct.runClosure visit c args
  | .native n => Eval.located span (n.call args)

/-- Runs a module in the scope that was made for it. -/
def guardModule (visit : Visit) (path lib text : String) (scope : ScopeId) :
    Eval (Except Diagnostic Value) := do
  guard (.made scope (.module ⟨lib, text⟩))
  Construct.runModule visit path lib text scope

/-- Evaluates a node within a bound, with a guard in front of each event. -/
def evalGuarded : (bound : Nat) → Visit
  | 0, scope, node => do
    guard (.node scope node)
    throw .exhausted
  | bound + 1, scope, node => do
    guard (.node scope node)
    evalFormBy (bound + 1) (evalGuarded bound)
      (Construct.invokeBy (guardApply guard (evalGuarded bound)))
      (Construct.loadBy (guardModule guard (evalGuarded bound))) scope node

/-- Behind a guard that does nothing, evaluation is as it is. -/
theorem evalGuarded_pure : ∀ bound : Nat, evalGuarded (fun _ => pure ()) bound = evalWithin bound
  | 0 => rfl
  | bound + 1 => by
    have happly : guardApply (fun _ => pure ()) (evalWithin bound) =
        Construct.apply (evalWithin bound) := by
      funext f args span
      cases f <;> rfl
    have hmodule : guardModule (fun _ => pure ()) (evalWithin bound) =
        Construct.runModule (evalWithin bound) := rfl
    funext scope node
    show evalFormBy _ _ _ _ scope node = evalForm (bound + 1) (evalWithin bound) scope node
    simp only [evalForm_eq, Construct.invoke_eq, Construct.load_eq, evalGuarded_pure bound, happly,
      hmodule]

end Node

section

open scoped Classical

/-- The guard that sounds an alarm in front of an event that is not as it is asked. -/
noncomputable def asking (asks : Machine → Event → Prop) (alarm : Eval Unit) (event : Event) :
    Eval Unit := do
  if asks (← get) event then pure () else alarm

end

variable {asks asked : Machine → Event → Prop} {alarm : Eval Unit} {event : Event} {m : Machine}

theorem run_asking (h : asks m event) : (asking asks alarm event).run m = (.ok (), m) := by
  rw [asking, Step.run_bind_ok (Step.run_get m), if_pos h]
  rfl

theorem run_asking_not (h : ¬asks m event) : (asking asks alarm event).run m = alarm.run m := by
  rw [asking, Step.run_bind_ok (Step.run_get m), if_neg h]

/-- An alarm that does nothing is no alarm. -/
theorem asking_pure (asks : Machine → Event → Prop) : asking asks (pure ()) = fun _ => pure () := by
  funext event
  refine funext fun m => ?_
  by_cases h : asks m event
  · exact run_asking h
  · exact run_asking_not h

/-- All events of the run of a program from `m` are as it is asked: an alarm could do whatever it
wants. -/
def Machine.Meets (asks : Machine → Event → Prop) (bound : Nat) (m : Machine) (scope : ScopeId)
    (root : Node) : Prop :=
  ∀ alarm, (Construct.program (Node.evalGuarded (asking asks alarm) bound) scope root).run m =
    (Construct.program (Node.evalWithin bound) scope root).run m

/-! ## Guards and disciplines -/

/-- The guard lets pass what is evaluated under the discipline, and it lets scopes be made only as
the discipline wants them.  Otherwise the run ends for lack of a bound. -/
structure Discipline.Guarded {W : Type} (D : Discipline W) (guard : Event → Eval Unit) : Prop where
  node : ∀ {w E m node}, D.Sound w m.store → D.Runs w m.store E node →
    (guard (.node E node)).run m = (.ok (), m)
  made : ∀ scope origin m, (guard (.made scope origin)).run m = (.ok (), m) ∧
      (∀ w, D.Makes w scope origin) ∨
    (guard (.made scope origin)).run m = (.error .exhausted, m)

namespace Node

variable {W : Type} {D : Discipline W} {guard : Event → Eval Unit} {visit : Visit} {w : W}
  {E : ScopeId}

/-- A step behind a guard that has let a scope be made. -/
theorem made_keeps {α : Type} {X : Store → Signal → Prop} {T : Store → α → Prop} {step : Eval α}
    {scope : ScopeId} {origin : Origin} (hguard : D.Guarded guard)
    (hexhausted : ∀ s, X s .exhausted)
    (h : (∀ w, D.Makes w scope origin) → D.Keeps w E X T m step) :
    D.Keeps w E X T m (do guard (.made scope origin); step) := by
  intro hs
  rcases hguard.made scope origin m with ⟨hrun, hmakes⟩ | hrun
  · rw [Step.run_bind_ok hrun]
    exact h hmakes hs
  · rw [Step.run_bind_error hrun]
    exact ⟨.refl hs, hexhausted _⟩

theorem guardApply_settles (hguard : D.Guarded guard) (hv : D.Visits visit) {f : Callable}
    {args : List Value} {span : Span} (hdepth : m.loopDepth = 0) (hspan : D.Points w span)
    (hf : D.Carries w m.store (.callable f)) (hargs : ∀ v ∈ args, D.Carries w m.store v) :
    Construct.SettlesWith D w E (D.Carries w) m (guardApply guard visit f args span) := by
  cases f with
  | closure c =>
    refine Keeps.bind_get fun _ => made_keeps hguard (fun _ => trivial) fun hmakes => ?_
    exact Construct.runClosure_settles hv (hmakes w) hdepth (Value.within_closure.1 hf) hargs
  | native n => exact Construct.native_settles hspan hf hargs

theorem guardModule_finishes (hguard : D.Guarded guard) (hv : D.Visits visit) {w' : W}
    {path lib text : String} (h : ∀ root, D.Makes w' E (.module ⟨lib, text⟩) →
      Node.ofSource ⟨lib, text⟩ = .ok root → D.Runs w m.store E root) :
    Construct.Finishes D w E (fun _ _ => True) m (guardModule guard visit path lib text E) :=
  made_keeps hguard (fun _ => rfl) fun hmakes =>
    Construct.runModule_finishes hv fun root => h root (hmakes w')

/-- **Guarded runs keep disciplines** that know what the guard lets pass. -/
theorem evalGuarded_keeps (hguard : D.Guarded guard) :
    ∀ bound : Nat, D.Visits (evalGuarded guard bound)
  | 0, w, E, m, node, h => by
    intro hs
    rw [evalGuarded, Step.run_bind_ok (hguard.node hs h)]
    exact Evaluates.throw_exhausted hs
  | bound + 1, w, E, m, node, h => by
    intro hs
    rw [evalGuarded, Step.run_bind_ok (hguard.node hs h)]
    have hv : D.Visits (evalGuarded guard bound) := evalGuarded_keeps hguard bound
    have hspan : D.Points w node.span := D.points_node h
    refine evalFormBy_keeps hv h (fun hf hvalues => ?_) (fun himports m' lib => ?_) hs
    · refine Construct.invokeBy_settles hspan (fun args hargs => ?_) hvalues
      exact guardApply_settles hguard hv rfl hspan hf hargs
    · exact Construct.loadBy_settles hspan himports fun path text hmodule =>
        guardModule_finishes hguard hv hmodule

end Node

/-- **What a run makes its scopes for** decides which discipline it keeps. -/
theorem Machine.Meets.finishes {W : Type} {D : Discipline W} {w : W} {bound : Nat} {scope : ScopeId}
    {root : Node} (hmeets : m.Meets asked bound scope root)
    (hnode : ∀ {m scope node}, asked m (.node scope node))
    (hmade : ∀ {m scope origin}, asked m (.made scope origin) → ∀ w, D.Makes w scope origin)
    (hdepth : m.loopDepth = 0) (h : D.Runs w m.store scope root) :
    Construct.Finishes D w scope (fun _ result => ∀ e, result = .error e → D.Locates w e) m
      (Construct.program (Node.evalWithin bound) scope root) := by
  have hguard : D.Guarded (asking asked (throw .exhausted)) := by
    refine ⟨fun _ _ => run_asking hnode, fun scope origin m => ?_⟩
    by_cases hasked : asked m (.made scope origin)
    · exact .inl ⟨run_asking hasked, hmade hasked⟩
    · exact .inr (run_asking_not hasked)
  have hv : D.Visits (Node.evalGuarded (asking asked (throw .exhausted)) bound) :=
    Node.evalGuarded_keeps hguard bound
  have hfinishes := Construct.program_finishes hv hdepth h
  intro hs
  rw [← hmeets (throw .exhausted)]
  exact hfinishes hs

/-! ## Guards and versions -/

namespace Node

variable {ι : Type} {V : Versions ι} {guard : ι → Event → Eval Unit} {visit : ι → Visit}

theorem guardApply_agree (hV : V.Uniform) (hguard : ∀ m event, V.Agree m fun i => guard i event)
    {f : Callable} {args : List Value} {span : Span}
    (hclosure : ∀ c, f = .closure c → V.Visits m visit c.definition.body) :
    V.Agree m fun i => guardApply (guard i) (visit i) f args span := by
  cases f with
  | closure c =>
    refine Agree.bind_get ((hguard m _).bind fun _ m₁ hm₁ => ?_)
    exact Construct.runClosure_agree ((hclosure c rfl).later hm₁.stacks)
  | native n =>
    refine .plain ?_
    exact .located (hV.points span) fun _ =>
      Native.call_performs (free_carries _ _) fun _ _ => free_carries _ _

/-- **Guarded runs are versions of one another**, if their guards are. -/
theorem evalGuarded_agree (hV : V.Uniform) (hmay : V.mayExhaust)
    (hguard : ∀ m event, V.Agree m fun i => guard i event) :
    ∀ (bound : Nat) (m : Machine) (node : Node),
      V.Visits m (fun i => evalGuarded (guard i) bound) node
  | 0, _, _ => ⟨hV.points _, fun _ m' _ => (hguard m' _).bind fun _ _ _ => .throw_exhausted hmay⟩
  | bound + 1, m, node => by
    refine ⟨hV.points _, fun scope m₀ _ => (hguard m₀ _).bind fun _ m₁ _ => ?_⟩
    refine evalFormBy_agree (hV.points _) (fun _ _ => hV.points _)
      (fun part _ => evalGuarded_agree hV hmay hguard bound m₁ part) (fun f args m₂ _ => ?_)
      (fun _ _ _ lib m₂ _ => ?_) (.inl ⟨hmay, bound + 1, fun _ => rfl⟩)
    · refine Construct.invokeBy_agree (hV.points _) (.refl V) (fun _ _ => hV.leaving)
        fun args _ => guardApply_agree hV hguard fun c _ => ?_
      exact evalGuarded_agree hV hmay hguard bound _ _
    · refine Construct.loadBy_agree (hV.points _) fun path text inner m₃ _ _ => ?_
      refine (hguard m₃ _).bind fun _ m₄ _ => ?_
      exact Construct.runModule_agree (.refl V) (fun _ he => (hV.errors _).1 he) hmay
        fun root _ => evalGuarded_agree hV hmay hguard bound _ root

end Node

/-- The run of a program from `m` comes to an event of this kind: an alarm would end it there. -/
def Machine.ComesTo (kind : Event → Prop) (bound : Nat) (m : Machine) (scope : ScopeId)
    (root : Node) : Prop :=
  ((Construct.program (Node.evalGuarded (asking (fun _ event => ¬kind event) (throw .unreachable))
    bound) scope root).run m).1 = .error .unreachable

/-- **What a run does not come to** it does not come to, whatever else it does not come to. -/
theorem Machine.meets_of_not_comesTo {κ : Type} {kind : κ → Event → Prop} {bound : Nat}
    {scope : ScopeId} {root : Node} (h : ∀ k, ¬m.ComesTo (kind k) bound scope root) :
    m.Meets (fun _ event => ∀ k, ¬kind k event) bound scope root := by
  -- one strict guard for each kind, and all alarms in front of any of them
  let guard : κ ⊕ Eval Unit → Event → Eval Unit :=
    Sum.elim (fun k => asking (fun _ event => ¬kind k event) (throw .unreachable))
      (asking fun _ event => ∀ k, ¬kind k event)
  have hguard : ∀ m event, (Versions.all (Set.range Sum.inl)).Agree m fun i => guard i event := by
    intro m event
    by_cases hnone : ∀ k, ¬kind k event
    · refine .ends (.value ()) fun i => ?_
      cases i with
      | inl k =>
        show (asking (fun _ event => ¬kind k event) _ event).run m = _
        exact run_asking (hnone k)
      | inr alarm =>
        show (asking (fun _ event => ∀ k, ¬kind k event) alarm event).run m = _
        exact run_asking hnone
    · obtain ⟨k, hk⟩ := not_forall.1 hnone
      refine .gives_up ⟨k, rfl⟩ ?_
      show ((asking (fun _ event => ¬kind k event) (throw .unreachable) event).run m).1 = _
      rw [run_asking_not hk]
      rfl
  have hagree : (Versions.all (Set.range Sum.inl)).Agree m fun i =>
      Construct.program (Node.evalGuarded (guard i) bound) scope root :=
    Construct.program_agree (.refl _) (fun _ he => he)
      (Node.evalGuarded_agree (all_uniform _) trivial hguard bound m root)
  have hstrict : ∀ i ∈ Set.range Sum.inl,
      ((Construct.program (Node.evalGuarded (guard i) bound) scope root).run m).1 ≠
        .error .unreachable := by
    rintro _ ⟨k, rfl⟩
    exact h k
  intro alarm
  have hrun := hagree.run_eq hstrict (.inr alarm) (.inr (pure ()))
  have hplain : guard (.inr (pure ())) = fun _ => pure () := asking_pure _
  rwa [hplain, Node.evalGuarded_pure] at hrun

/-- Two guards one behind the other, each with an alarm of its own. -/
noncomputable def askingBoth (asked asks : Machine → Event → Prop) (alarms : Eval Unit × Eval Unit)
    (event : Event) : Eval Unit := do
  asking asked alarms.1 event
  asking asks alarms.2 event

/-- The strict ones are the alarms of the first guard alone, and those of the second one where the
first guard has let pass. -/
def strictAlarms : Set (Eval Unit × Eval Unit) :=
  {(throw .unreachable, pure ()), (throw .exhausted, throw .unreachable)}

theorem askingBoth_agree (m : Machine) (event : Event) :
    (Versions.all strictAlarms).Agree m fun alarms => askingBoth asked asks alarms event := by
  by_cases hasked : asked m event
  · have hrun : ∀ alarms, (askingBoth asked asks alarms event).run m =
        (asking asks alarms.2 event).run m :=
      fun alarms => Step.run_bind_ok (run_asking hasked)
    by_cases hasks : asks m event
    · exact .ends (.value ()) fun alarms => (hrun alarms).trans (run_asking hasks)
    · refine .gives_up (.inr rfl) ?_
      rw [hrun, run_asking_not hasks]
      rfl
  · have hrun : (asking asked (throw .unreachable) event).run m = (.error .unreachable, m) :=
      run_asking_not hasked
    refine .gives_up (.inl rfl) ?_
    rw [askingBoth, Step.run_bind_error hrun]

/-- Without an alarm of its own, the second guard makes no difference. -/
theorem askingBoth_pure (alarm : Eval Unit) :
    askingBoth asked asks (alarm, pure ()) = asking asked alarm := by
  funext event
  rw [askingBoth, asking_pure]
  exact bind_pure_unit

/-- Nor does the first one. -/
theorem askingBoth_pure_left (alarm : Eval Unit) :
    askingBoth asked asks (pure (), alarm) = asking asks alarm := by
  funext event
  rw [askingBoth, asking_pure]
  rfl

/-- Where the first guard gives up before it lets a wrong scope be made, the second one lets pass
what a discipline allows. -/
theorem askingBoth_guarded {W : Type} {D : Discipline W}
    (hnode : ∀ {m scope node}, asked m (.node scope node))
    (hmade : ∀ {m scope origin}, asked m (.made scope origin) → ∀ w, D.Makes w scope origin)
    (hasks : ∀ {w m scope node}, D.Sound w m.store → D.Runs w m.store scope node →
      asks m (.node scope node))
    (hmakes : ∀ {m scope origin}, asks m (.made scope origin)) :
    D.Guarded (askingBoth asked asks (throw .exhausted, throw .unreachable)) := by
  refine ⟨fun hs h => ?_, fun scope origin m => ?_⟩
  · rw [askingBoth, Step.run_bind_ok (run_asking hnode)]
    exact run_asking (hasks hs h)
  · by_cases hasked : asked m (.made scope origin)
    · refine .inl ⟨?_, hmade hasked⟩
      rw [askingBoth, Step.run_bind_ok (run_asking hasked)]
      exact run_asking hmakes
    · exact .inr (Step.run_bind_error (run_asking_not hasked))

/-- **What a run makes its scopes for decides how it evaluates its nodes**, if a discipline says
so. -/
theorem Machine.meets_of_discipline {W : Type} {D : Discipline W} {w : W} {bound : Nat}
    {scope : ScopeId} {root : Node} (hmeets : m.Meets asked bound scope root)
    (hnode : ∀ {m scope node}, asked m (.node scope node))
    (hmade : ∀ {m scope origin}, asked m (.made scope origin) → ∀ w, D.Makes w scope origin)
    (hasks : ∀ {w m scope node}, D.Sound w m.store → D.Runs w m.store scope node →
      asks m (.node scope node))
    (hmakes : ∀ {m scope origin}, asks m (.made scope origin)) (hdepth : m.loopDepth = 0)
    (hs : D.Sound w m.store) (h : D.Runs w m.store scope root) : m.Meets asks bound scope root := by
  let run : Eval Unit × Eval Unit → Eval (Except Diagnostic Value) := fun alarms =>
    Construct.program (Node.evalGuarded (askingBoth asked asks alarms) bound) scope root
  have hagree : (Versions.all strictAlarms).Agree m run :=
    Construct.program_agree (.refl _) (fun _ he => he)
      (Node.evalGuarded_agree (all_uniform _) trivial askingBoth_agree bound m root)
  -- the first guard lets everything pass, and the run itself does not give up
  have hfirst : ((run (throw .unreachable, pure ())).run m).1 ≠ .error .unreachable := by
    have hrun : run (throw .unreachable, pure ()) = Construct.program
        (Node.evalGuarded (asking asked (throw .unreachable)) bound) scope root := by
      simp only [run, askingBoth_pure]
    have hends := (hmeets.finishes hnode hmade hdepth h hs).2
    rw [hrun, hmeets]
    intro hbad
    rw [hbad] at hends
    cases hends
  -- the second guard lets pass what the discipline allows
  have hsecond : ((run (throw .exhausted, throw .unreachable)).run m).1 ≠ .error .unreachable := by
    have hv : D.Visits (Node.evalGuarded
        (askingBoth asked asks (throw .exhausted, throw .unreachable)) bound) :=
      Node.evalGuarded_keeps (askingBoth_guarded hnode hmade hasks hmakes) bound
    intro hbad
    obtain ⟨-, hends⟩ := Construct.program_finishes hv hdepth h hs
    rw [hbad] at hends
    cases hends
  have hstrict : ∀ alarms ∈ strictAlarms, ((run alarms).run m).1 ≠ .error .unreachable := by
    rintro _ (rfl | rfl)
    · exact hfirst
    · exact hsecond
  intro alarm
  have halarm : run (pure (), alarm) =
      Construct.program (Node.evalGuarded (asking asks alarm) bound) scope root := by
    simp only [run, askingBoth_pure_left]
  have hplain : run (pure (), pure ()) = Construct.program (Node.evalWithin bound) scope root := by
    simp only [run, askingBoth_pure, asking_pure, Node.evalGuarded_pure]
  rw [← halarm, ← hplain]
  exact hagree.run_eq hstrict _ _

/-- If nothing is asked, no alarm goes off. -/
theorem Machine.meets_of_forall {bound : Nat} {scope : ScopeId} {root : Node}
    (h : ∀ m event, asks m event) : m.Meets asks bound scope root := by
  intro alarm
  have hguard : asking asks alarm = fun _ => pure () :=
    funext fun event => funext fun m => run_asking (h m event)
  rw [hguard, Node.evalGuarded_pure]

/-- A discipline that lets all scopes be made holds at every node of a run. -/
theorem Machine.meets_of_open {W : Type} {D : Discipline W} {w : W} {bound : Nat}
    {scope : ScopeId} {root : Node} (hopen : D.Open)
    (hasks : ∀ {w m scope node}, D.Sound w m.store → D.Runs w m.store scope node →
      asks m (.node scope node))
    (hmakes : ∀ {m scope origin}, asks m (.made scope origin)) (hdepth : m.loopDepth = 0)
    (hs : D.Sound w m.store) (h : D.Runs w m.store scope root) : m.Meets asks bound scope root :=
  meets_of_discipline (meets_of_forall fun _ _ => trivial) trivial (fun _ w => hopen w _ _) hasks
    hmakes hdepth hs h

end BpScript
