import BpScript.Proofs.Code

/-!
# Programs without loops end

A bound on nesting stands in for nothing but patience: with a higher one, the same program goes on
for longer.  For programs that neither import nor repeat, some bound is always enough, whatever
functions they store, hand around and call.

The measure is lexicographic.  First comes the room for calls, which the limit on their depth keeps
finite; a call takes one place of it, and runs a body that may be of any size.  Then comes the size
of the node.  That no loop hides in a body found in the store is not seen by this induction, so it
is made for versions that give up at a loop (`Versions.bounds`), and the code that a run comes to
tells that none of them does.  Loops over the entries of an object may stay: the entries are taken
before the loop starts.

* `Form.isLoopFree` — all constructs but three loops and imports.
* `Node.watch_ends` — the measure.
* **`loop_free_ends`** — programs in a fresh session.
-/

namespace BpScript

open Filter

/-- Neither a loop that goes on until its body ends it, nor an import. -/
def Form.isLoopFree : Form → Bool
  | .whileLoop .. | .forCount .. | .forList .. | .importAs .. => false
  | _ => true

/-- The node is no such loop or import. -/
def Node.IsLoopFree (node : Node) : Prop :=
  node.form.isLoopFree = true

theorem Node.IsLoopFree.not_importAs {node lib : Node} {name : Ident} (h : node.IsLoopFree) :
    node.form ≠ .importAs lib name := by
  intro hform
  rw [IsLoopFree, hform] at h
  cases h

/-- Asks for nodes that are loop-free. -/
def loopFreeNodes : Check := fun _ _ point =>
  match point with
  | .node node => node.form.isLoopFree
  | .native _ => true

/-- Higher and higher bounds.  None of them may be too low in the end. -/
def Versions.bounds : Versions Nat where
  most := atTop
  strict := {atTop}
  strict_le := fun _ h => h.le
  mayExhaust := False

theorem Versions.bounds_uniform : Versions.bounds.Uniform :=
  ⟨fun _ => trivial, fun _ => Iff.rfl⟩

/-- What holds from the next bound on holds from this one on. -/
theorem Versions.Agree.of_succ {α : Type} {m : Machine} {steps : Nat → Eval α}
    (h : Versions.bounds.Agree m fun n => steps (n + 1)) : Versions.bounds.Agree m steps := by
  have hshift : ∀ {p : Nat → Prop}, (∀ᶠ n in atTop, p (n + 1)) → ∀ᶠ n in atTop, p n := by
    intro p hp
    rw [← map_add_atTop_eq_nat 1]
    exact eventually_map.2 hp
  rcases h with ⟨F, rfl, hbad⟩ | ⟨outcome, m', hplace, halike, hrun⟩
  · exact .inl ⟨atTop, rfl, hshift hbad⟩
  · obtain ⟨r, rfl⟩ := Versions.bounds_uniform.exists_eq halike
    exact .inr ⟨_, m', hplace, halike, hshift hrun⟩

theorem Node.sizeOf_lt_of_mem_parts {node part : Node} (h : part ∈ node.form.parts) :
    sizeOf part < sizeOf node := by
  have hlt := Form.sizeOf_lt_of_mem_contents (Form.mem_contents_of_mem_parts h)
  obtain ⟨form, span⟩ := node
  simp only [Node.form, Node.mk.sizeOf_spec] at hlt ⊢
  omega

/-- **The measure.**  Evaluation that gives up at loops ends: from some bound on it does not depend
on the bound any more. -/
theorem Node.watch_ends (around : List Activity) (m : Machine) (node : Node) :
    Versions.bounds.Visits m
      (fun n => watch loopFreeNodes (some (throw .unreachable)) n around) node := by
  have hV := Versions.bounds_uniform
  refine ⟨hV.points _, fun scope m' hm => ?_⟩
  have hguards : ∀ {around m} point, Guards Versions.bounds loopFreeNodes
      (fun _ => some (throw .unreachable)) around m point :=
    fun _ => .inr ⟨atTop, rfl, .of_forall fun _ => rfl⟩
  refine Versions.Agree.of_succ (watch_succ_agree hV id (hguards _) (fun hcheck => ?_)
    (fun part hpart => ?_) (fun f values m₁ hm₁ hdepth => ?_) fun hcheck lib name hform => ?_)
  · refine .inr ⟨fun n => eventually_gt_atTop n, ?_⟩
    obtain ⟨form, span⟩ := node
    cases form <;> first | rfl | cases hcheck
  · -- parts are smaller, and as much room is left for calls
    exact (watch_ends around m part).later hm
  · -- a body may be of any size, but inside the call less room is left
    have hroom : maxCallDepth + 1 - (m₁.entering f.name).contexts.size <
        maxCallDepth + 1 - m.contexts.size := by
      rw [hm.contexts] at hdepth
      rw [Machine.entering, Array.size_push, (hm.trans hm₁).contexts]
      omega
    exact watchApply_agree hV (fun c _ => watch_ends _ (m₁.entering f.name) _) fun n _ => hguards _
  · exact absurd hform (IsLoopFree.not_importAs hcheck)
termination_by (maxCallDepth + 1 - m.contexts.size, sizeOf node)
decreasing_by
  · exact Prod.Lex.right _ (sizeOf_lt_of_mem_parts hpart)
  · exact Prod.Lex.left _ _ hroom

/-- A program whose code is loop-free comes to its end within some bound, and from there on does not
depend on the bound. -/
theorem Construct.program_ends {m : Machine} (hdepth : m.loopDepth = 0)
    (hstore : m.store.Runs Node.IsLoopFree) (scope : ScopeId) {root : Node}
    (hroot : root.All Node.IsLoopFree) :
    ∃ (bound : Nat) (result : Except Diagnostic Value) (after : Machine), ∀ n, bound ≤ n →
      (program (Node.evalWithin n) scope root).run m = (.ok result, after) := by
  have halways : ∀ n, m.Always loopFreeNodes n scope root := fun n =>
    Machine.always_of_code (fun h hform => absurd hform h.not_importAs) (fun h _ _ => h)
      (fun _ _ _ => rfl) hdepth hstore n scope hroot
  have hends : ∀ n, (∃ result, ((program (Node.evalWithin n) scope root).run m).1 = .ok result) ∨
      ((program (Node.evalWithin n) scope root).run m).1 = .error .exhausted :=
    fun n => (program_keeps_place n scope root hdepth).2
  have hagree : Versions.bounds.Agree m fun n =>
      program (Node.watch loopFreeNodes (some (throw .unreachable)) n []) scope root :=
    program_agree (.refl _) (fun _ he => he) (Node.watch_ends [] m root)
  simp only [Versions.Agree, halways _ _] at hagree
  rcases hagree with ⟨F, rfl, hbad⟩ | ⟨outcome, after, -, halike, hrun⟩
  · obtain ⟨n, hn⟩ := hbad.exists
    rcases hends n with ⟨result, hok⟩ | hok
    · rw [hok] at hn
      cases hn
    · rw [hok] at hn
      cases hn
  · obtain ⟨bound, hbound⟩ := eventually_atTop.1 hrun
    cases halike with
    | value result => exact ⟨bound, result, after, hbound⟩
    | error e _ =>
      rcases hends bound with ⟨result, hok⟩ | hok <;>
      · rw [hbound bound le_rfl] at hok
        cases hok
    | signal signal _ hexhausted =>
      rcases hends bound with ⟨result, hok⟩ | hok
      · rw [hbound bound le_rfl] at hok
        cases hok
      · rw [hbound bound le_rfl] at hok
        exact (hexhausted (Except.error.inj hok)).elim

/-- **Programs without loops end.**  A source whose tree has neither imports nor loops, those over
the entries of objects apart, ends with a value or an error when it is run in a fresh session,
whatever its functions call: from some bound on, the run has one outcome and leaves one state
behind.  Values are shown and compared no deeper than the store could nest, so that one which
contains itself does no harm. -/
theorem loop_free_ends {source : Source} {root : Node} (hsource : Node.ofSource source = .ok root)
    (hroot : root.All Node.IsLoopFree) (console : Console) (workspace : Workspace) :
    let s := Session.start console workspace
    ∃ (bound : Nat) (outcome : RunOutcome) (after : Machine),
      ((∃ v, outcome = .value v) ∨ ∃ e, outcome = .error e) ∧
        ∀ n, bound ≤ n → s.machine.runWithin n s.scope source = (outcome, after) := by
  intro s
  have hidle : s.machine.Idle := .host _ _ _ (.start console workspace)
  obtain ⟨bound, result, after, hrun⟩ :=
    Construct.program_ends hidle.place.2.1 (Session.start_runs console workspace) s.scope hroot
  cases result with
  | ok v =>
    refine ⟨bound, .value v, after, .inl ⟨v, rfl⟩, fun n hn => ?_⟩
    simp only [Machine.runWithin, hsource, hrun n hn]
  | error e =>
    refine ⟨bound, .error e, after, .inr ⟨e, rfl⟩, fun n hn => ?_⟩
    simp only [Machine.runWithin, hsource, hrun n hn]

/-- A function that calls itself for good, through a loop over an object that holds it. -/
theorem runaway_recursion_ends :
    let source : Source :=
      ⟨"main", "func f(o) => for k, g of o then g(o)\nlet o = \x7bf: f\x7d\nf(o)"⟩
    let s := Session.start default .memory
    ∃ (bound : Nat) (outcome : RunOutcome) (after : Machine),
      ((∃ v, outcome = .value v) ∨ ∃ e, outcome = .error e) ∧
        ∀ n, bound ≤ n → s.machine.runWithin n s.scope source = (outcome, after) := by
  intro source s
  have hread : (Node.ofSource source).toOption.any (Node.allWithin (·.form.isLoopFree) 9) =
      true := by
    decide +kernel
  obtain ⟨root, hroot, hloopFree⟩ := (Option.any_eq_true _ _).1 hread
  exact loop_free_ends (Node.ofSource_of_toOption hroot) (.of_allWithin hloopFree) default .memory

end BpScript
