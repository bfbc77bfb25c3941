import BpScript.Proofs.Versions

/-!
# Tracebacks

An error picks up its frames on its way out: each call that it leaves adds one, below those of the
calls inside.  The contexts in the frames are read off the state.  What comes out is the chain of
calls that led to the error.  To say so, another evaluator is set against this one: it knows the
calls in progress around each point, and gives all of them to an error where that is raised.  Calls
add nothing to an error that has frames already.

* `Call`, `Call.frames` — calls in progress, and how they are told.  The context of a frame is the
  name of what the next call called.
* `Node.evalTraced` — errors are given the calls in progress where they are raised.
* `Versions.traced` — how the errors of both evaluators go together inside of calls.
* **`errors_tell_calls`** — both evaluators do the same.
-/

namespace BpScript

/-! ## Calls in progress -/

/-- A call in progress: the call expression, and the name of the function that it called. -/
structure Call where
  span : Span
  callee : String
  deriving DecidableEq, Repr

namespace Call

variable {base : String}

/-- The context inside of calls, innermost first, that were made from inside of `base`. -/
def context (base : String) : List Call → String
  | [] => base
  | call :: _ => call.callee

/-- The frames of calls.  Each call was made from inside of the next one. -/
def frames (base : String) : List Call → List Frame
  | [] => []
  | call :: outer => ⟨context base outer, call.span⟩ :: frames base outer

theorem context_append (inner outer : List Call) :
    context base (inner ++ outer) = context (context base outer) inner := by
  cases inner <;> rfl

theorem frames_append (inner outer : List Call) :
    frames base (inner ++ outer) = frames (context base outer) inner ++ frames base outer := by
  induction inner with
  | nil => rfl
  | cons call inner ih =>
    rw [List.cons_append, frames, frames, context_append, ih, List.cons_append]

@[simp]
theorem length_frames (calls : List Call) : (frames base calls).length = calls.length := by
  induction calls with
  | nil => rfl
  | cons call outer ih => rw [frames, List.length_cons, List.length_cons, ih]

/-- The outermost call was made from inside of `base`. -/
theorem context_of_getLast? {calls : List Call} {frame : Frame}
    (h : (frames base calls).getLast? = some frame) : frame.context = base := by
  induction calls with
  | nil => cases h
  | cons call outer ih =>
    cases outer with
    | nil => exact congrArg Frame.context (Option.some.inj h).symm
    | cons next outer => exact ih h

end Call

open Call Versions

/-! ## Errors that are told at once -/

/-- An error that has no frames yet is given all of them. -/
def Diagnostic.inside (e : Diagnostic) (frames : List Frame) : Diagnostic :=
  if e.trace.isEmpty then { e with trace := frames.toArray } else e

/-- The signal, if it is an error with all frames. -/
def Signal.inside (frames : List Frame) : Signal → Signal
  | .error e => .error (e.inside frames)
  | signal => signal

/-- A step whose errors are given frames where they are raised. -/
def Eval.inside {α : Type} (frames : List Frame) (step : Eval α) : Eval α := do
  Eval.conclude ((← Eval.observe step).mapError (Signal.inside frames))

/-- Evaluates a node inside of calls that were made from inside of `base`.  Where a node fails, the
error is given the calls in progress.  A built-in function has no nodes: what it raises is given
them as it leaves the call.  What a module fails with is reported by its import as an error of its
own, so inside of the module the calls around the import do not count. -/
def Node.evalTraced : (bound : Nat) → (base : String) → List Call → Visit
  | 0, _, _, _, _ => throw .exhausted
  | bound + 1, base, calls, scope, node =>
    Eval.inside (frames base calls) <|
      evalFormBy (bound + 1) (evalTraced bound base calls)
        (fun f args span =>
          let inside := ⟨span, f.name⟩ :: calls
          Construct.invokeWith (Construct.apply (evalTraced bound base inside))
            (fun _ e => e.inside (frames base inside)) f args span)
        (Construct.loadBy fun path lib =>
          Construct.runModule (evalTraced bound s!"<module {lib}>" []) path lib)
        scope node

/-! ## Both evaluators together -/

/-- The evaluator whose errors pick up their frames and the one whose errors are given them at once,
inside of calls.  `room` is left for more calls.  Where `inner` are the calls that an error has
left, the one has the frames of these, and the other has all frames or, if it has just been raised,
none. -/
def Versions.traced (base : String) (calls : List Call) (room : Nat) : Versions Bool where
  most := ⊤
  strict := ∅
  strict_le := fun _ h => h.elim
  mayExhaust := True
  errors := fun e => ∃ inner : List Call, inner.length ≤ room ∧
    (e false).trace = (frames (context base calls) inner).toArray ∧
      (e true = { e false with trace := (frames base (inner ++ calls)).toArray } ∨
        inner = [] ∧ e true = e false)
  fresh := fun _ _ _ => ⟨[], Nat.zero_le _, rfl, .inr ⟨rfl, rfl⟩⟩

variable {base : String} {calls : List Call} {room : Nat} {m : Machine}

/-- The two evaluators stay the same inside of calls and modules. -/
theorem Versions.traced_hosts {base' : String} {calls' : List Call} {room' : Nat} :
    (traced base calls room).Hosts (traced base' calls' room') :=
  ⟨rfl, rfl, id⟩

/-- Outside of all calls, both tell the same. -/
theorem Versions.traced_alike {e : Bool → Diagnostic} (he : (traced base [] room).errors e) :
    ∃ e₀, e = fun _ => e₀ := by
  obtain ⟨inner, -, htrace, htold⟩ := he
  refine ⟨e false, funext fun atOnce => ?_⟩
  cases atOnce with
  | false => rfl
  | true =>
    rcases htold with htold | ⟨-, htold⟩
    · rw [htold, List.append_nil]
      exact congrArg (fun trace => { e false with trace }) htrace.symm
    · exact htold

/-- Where it has not been done yet, the frames are given. -/
theorem Diagnostic.inside_eq {inner : List Call} {e e' : Diagnostic}
    (htrace : e.trace = (frames (context base calls) inner).toArray)
    (h : e' = { e with trace := (frames base (inner ++ calls)).toArray } ∨ inner = [] ∧ e' = e) :
    e'.inside (frames base calls) = { e with trace := (frames base (inner ++ calls)).toArray } := by
  rcases h with rfl | ⟨rfl, rfl⟩
  · unfold inside
    split
    · next hempty =>
      have hnone : frames base (inner ++ calls) = [] := by simpa using hempty
      have hlength := @length_frames base (inner ++ calls)
      rw [hnone] at hlength
      obtain ⟨rfl, rfl⟩ := List.append_eq_nil_iff.1 (List.eq_nil_of_length_eq_zero hlength.symm)
      rfl
    · rfl
  · rw [inside, htrace]
    rfl

/-- What goes together still does once the frames are given. -/
theorem Versions.Agree.inside {α : Type} {steps : Bool → Eval α}
    (h : (traced base calls room).Agree m steps) :
    (traced base calls room).Agree m fun atOnce =>
      if atOnce then Eval.inside (frames base calls) (steps atOnce) else steps atOnce := by
  have hgiven : (traced base calls room).Agree m fun atOnce =>
      Eval.observe (steps atOnce) >>= fun outcome => Eval.conclude
        (if atOnce then outcome.mapError (Signal.inside (frames base calls)) else outcome) := by
    have hpass : ∀ atOnce : Bool, (Eval.conclude (if atOnce then
        (Except.error Signal.unreachable).mapError (Signal.inside (frames base calls))
        else .error .unreachable) : Eval α) = MonadExcept.throw .unreachable := by
      intro atOnce
      cases atOnce <;> rfl
    refine h.observe_bind (.refl _) hpass fun outcome m' _ halike => ?_
    cases halike with
    | value a =>
      refine .follow (.refl m') (.of_forall fun atOnce => ?_) (.pure (a := a))
      cases atOnce <;> rfl
    | error e he =>
      obtain ⟨inner, hroom, htrace, htold⟩ := he
      have he' : (traced base calls room).errors fun atOnce =>
          if atOnce then (e true).inside (frames base calls) else e false :=
        ⟨inner, hroom, htrace, .inl (Diagnostic.inside_eq htrace htold)⟩
      refine .follow (.refl m') (.of_forall fun atOnce => ?_) (.throw_error he')
      cases atOnce <;> rfl
    | signal signal hs hexhausted =>
      refine .follow (.refl m') (.of_forall fun atOnce => ?_) (.throw hs hexhausted)
      cases signal <;> cases atOnce <;> first | rfl | exact absurd rfl (hs _)
  refine hgiven.follow (.refl m) (.of_forall fun atOnce => ?_)
  cases atOnce
  · rw [if_neg Bool.false_ne_true, Step.run_bind_ok (Eval.run_observe _ m), Eval.run_conclude]
    rfl
  · rfl

/-- An error that leaves a call has left one more of the calls in progress. -/
theorem Versions.errors_leaving {call : Call} {e : Bool → Diagnostic}
    (he : (traced base (call :: calls) room).errors e) :
    (traced base calls (room + 1)).errors fun atOnce =>
      if atOnce then (e true).inside (frames base (call :: calls))
      else (e false).leaving (context base calls) call.span := by
  obtain ⟨inner, hroom, htrace, htold⟩ := he
  refine ⟨inner ++ [call], by simpa using hroom, ?_, .inl ?_⟩
  · simp only [Bool.false_eq_true, if_false, Diagnostic.leaving, htrace, frames_append, context,
      frames, List.push_toArray]
  · simp only [if_true, Bool.false_eq_true, if_false]
    rw [Diagnostic.inside_eq htrace htold, List.append_assoc]
    rfl

namespace Node

/-- **Inside of calls.**  The induction is on the bound.  A call puts itself in front of the calls
around it and takes up some of the room. -/
theorem traced_agree : ∀ (bound : Nat) (base : String) (calls : List Call) {m : Machine},
    m.contexts.back?.getD "" = context base calls → ∀ node,
      (traced base calls (maxCallDepth + 1 - m.contexts.size)).Visits m
        (fun atOnce => if atOnce then evalTraced bound base calls else evalWithin bound) node
  | 0, base, calls, m, _, node => by
    refine ⟨trivial, fun scope m' _ => ?_⟩
    refine Agree.follow (.refl m') (.of_forall fun atOnce => ?_) (.throw_exhausted trivial)
    cases atOnce <;> rfl
  | bound + 1, base, calls, m, hcontext, node => by
    refine ⟨trivial, fun scope m₀ hm₀ => ?_⟩
    have hparts : ∀ part ∈ node.form.parts,
        (traced base calls (maxCallDepth + 1 - m.contexts.size)).Visits m₀
          (fun atOnce => if atOnce then evalTraced bound base calls else evalWithin bound) part :=
      fun part _ => (traced_agree bound base calls hcontext part).later hm₀
    have hagree : (traced base calls (maxCallDepth + 1 - m.contexts.size)).Agree m₀ fun atOnce =>
        evalFormBy (bound + 1)
          (if atOnce then evalTraced bound base calls else evalWithin bound)
          (fun f args span =>
            let inside := ⟨span, f.name⟩ :: calls
            Construct.invokeWith
              (Construct.apply (if atOnce then evalTraced bound base inside else evalWithin bound))
              (fun caller e => if atOnce then e.inside (frames base inside)
                else e.leaving caller span) f args span)
          (Construct.loadBy fun path lib => Construct.runModule
            (if atOnce then evalTraced bound s!"<module {lib}>" [] else evalWithin bound) path lib)
          scope node := by
      refine evalFormBy_agree trivial (fun _ _ => trivial) hparts (fun f args m₁ hm₁ => ?_)
        (fun _ _ _ lib m₁ hm₁ => ?_) (.inl ⟨trivial, bound + 1, fun _ => rfl⟩)
      · have hcontexts := (hm₀.trans hm₁).contexts
        have hinside : (m₁.entering f.name).contexts.back?.getD "" = f.name := by
          simp [Machine.entering]
        have hbody := traced_agree bound base (⟨node.span, f.name⟩ :: calls) hinside
        refine Construct.invokeWith_agree trivial traced_hosts (fun hdepth e he => ?_)
          fun args hdepth => Construct.apply_agree trivial fun c _ => hbody c.definition.body
        have hroom : maxCallDepth + 1 - (m₁.entering f.name).contexts.size + 1 =
            maxCallDepth + 1 - m.contexts.size := by
          simp only [Machine.entering, Array.size_push]
          rw [hcontexts] at hdepth ⊢
          omega
        rw [hcontexts, hcontext, ← hroom]
        exact errors_leaving he
      · refine Construct.loadBy_agree trivial fun path text inner m₂ hm₂ _ => ?_
        have hinside : ((m₂.enteringImport path).entering s!"<module {lib}>").contexts.back?.getD
            "" = s!"<module {lib}>" := by
          simp [Machine.entering]
        have hroot := traced_agree bound s!"<module {lib}>" [] hinside
        exact Construct.runModule_agree traced_hosts (fun _ => traced_alike) trivial fun root _ =>
          hroot root
    refine hagree.inside.follow (.refl m₀) (.of_forall fun atOnce => ?_)
    cases atOnce
    · show (evalForm _ _ _ _).run m₀ = _
      rw [evalForm_eq]
      rfl
    · rfl

end Node

/-- **Errors tell the calls that led to them.**  Wherever a node is evaluated, it makes no
difference whether its errors pick up a frame from each call they leave or are given all calls in
progress where they are raised.  So the frames are those of calls in progress: the context of each
frame but the last is the name of what the next frame's call called, that of the last frame is the
context around the node, and there are no more frames than there was room for calls. -/
theorem errors_tell_calls (bound : Nat) (scope : ScopeId) (node : Node) (m : Machine) :
    let base := m.contexts.back?.getD ""
    (Node.evalTraced bound base [] scope node).run m = (Node.evalWithin bound scope node).run m ∧
      ∀ e m', (Node.evalWithin bound scope node).run m = (.error (.error e), m') →
        (∃ calls, e.trace = (frames base calls).toArray) ∧
          e.trace.size ≤ maxCallDepth + 1 - m.contexts.size ∧
            ∀ frame, e.trace.back? = some frame → frame.context = base := by
  intro base
  have hagree := (Node.traced_agree bound base [] rfl node).here scope
  obtain ⟨F, hF, -⟩ | ⟨outcome, after, -, halike, hrun⟩ := hagree
  · exact hF.elim
  have hplain : (Node.evalWithin bound scope node).run m = (outcome false, after) :=
    Filter.eventually_top.1 hrun false
  have htraced : (Node.evalTraced bound base [] scope node).run m = (outcome true, after) :=
    Filter.eventually_top.1 hrun true
  cases halike with
  | value a => exact ⟨htraced.trans hplain.symm, fun e m' h => by cases hplain.symm.trans h⟩
  | signal signal hs _ =>
    refine ⟨htraced.trans hplain.symm, fun e m' h => ?_⟩
    cases hplain.symm.trans h
    exact absurd rfl (hs e)
  | error e he =>
    obtain ⟨e₀, rfl⟩ := traced_alike he
    refine ⟨htraced.trans hplain.symm, fun e' m' h => ?_⟩
    cases hplain.symm.trans h
    obtain ⟨inner, hroom, htrace, -⟩ := he
    refine ⟨⟨inner, htrace⟩, ?_, fun frame hframe => ?_⟩
    · rw [htrace, List.size_toArray, length_frames]
      exact hroom
    · rw [htrace, List.back?_toArray] at hframe
      exact context_of_getLast? hframe

/-- A function that calls another one, where a name is not defined. -/
theorem nested_error_tells_calls :
    let body : Node := .mk (.access ⟨"x", default⟩) default
    let inner : Node := .mk (.function (.mk (some ⟨"inner", default⟩) [] body false true)) default
    let call : Node := .mk (.call inner []) default
    let outer : Node := .mk (.function (.mk (some ⟨"outer", default⟩) [] call false true)) default
    let root : Node := .mk (.call outer []) default
    let m := Machine.start default .memory
    ∃ e m', (Node.evalWithin 9 ⟨0⟩ root).run m = (.error (.error e), m') ∧
      e.trace = #[⟨"outer", default⟩, ⟨programContext, default⟩] ∧
        (∃ calls, e.trace = (frames programContext calls).toArray) ∧
          e.trace.size ≤ maxCallDepth + 1 - m.contexts.size ∧
            ∀ frame, e.trace.back? = some frame → frame.context = programContext := by
  intro body inner call outer root m
  exact ⟨_, _, rfl, rfl, (errors_tell_calls 9 ⟨0⟩ root m).2 _ _ rfl⟩

end BpScript
