import BpScript.Proofs.Discipline.Construct
import BpScript.Session

/-!
# Evaluation comes back to where it started

Calls, modules and loop bodies move the state to another place: they note a context, an import or
one more loop.  Whatever ends an evaluation (a value, an error, a `return`, `break` or `continue`),
the place is put back; and a loop signal is on its way only where a loop is there to take it.

Under the discipline that asks for nothing (`Discipline.free`), this is what is left of
`Node.evalWithin_keeps`.

* `Machine.Idle` — the states between runs: fresh ones, and those that runs have left behind.
* **`evalWithin_balanced`** — evaluation keeps the place, calls settle, and no program is left by a
  loop signal.
-/

namespace BpScript

/-- The discipline that asks for nothing. -/
def Discipline.free : Discipline Unit where
  Sound _ _ := True
  Refers _ _ _ := True
  Runs _ _ _ _ := True
  Imports _ := True
  Grows _ _ _ _ := True
  grows_refl _ _ _ := trivial
  grows_trans _ _ := trivial
  refers_mono _ _ := trivial
  runs_mono _ _ := trivial
  runs_part _ _ := trivial
  imports_of_runs _ _ := trivial
  refers_closure _ _ := trivial
  items_within _ _ _ _ _ := trivial
  entries_within _ _ _ _ _ := trivial
  lookup_within _ _ _ _ _ := trivial
  newList _ _ _ := ⟨trivial, trivial, trivial⟩
  newObject _ _ _ _ := ⟨trivial, trivial, trivial⟩
  bind _ _ _ _ := ⟨trivial, trivial⟩
  modifyItems _ _ _ _ := ⟨trivial, trivial⟩
  modifyEntries _ _ _ _ _ := ⟨trivial, trivial⟩
  call _ _ _ _ _ := ⟨trivial, trivial, fun _ _ _ => trivial⟩
  load _ _ := ⟨(), trivial, fun _ _ _ _ => trivial,
    fun _ _ _ => ⟨trivial, fun _ => trivial, fun _ _ _ _ => trivial⟩⟩

open Discipline

variable {m : Machine}

theorem Discipline.free_open : Discipline.free.Open := fun _ _ _ => trivial

/-- Every value may be carried where nothing is asked for. -/
theorem Discipline.free_carries (s : Store) (v : Value) : Discipline.free.Carries () s v :=
  fun _ _ => trivial

/-- Evaluating a node keeps the place, and its outcome is permitted there. -/
theorem evalWithin_keeps_place (bound : Nat) (scope : ScopeId) (node : Node) (m : Machine) :
    let r := (Node.evalWithin bound scope node).run m
    m.SamePlace r.2 ∧
      Ends (Discipline.free.Permits () m.loopDepth) (fun _ _ => True) r.2.store r.1 := by
  have hruns : Discipline.free.Runs () m.store scope node := trivial
  have hkeeps := (Node.evalWithin_keeps Discipline.free free_open bound hruns).weaken
    (U := fun _ _ => True) fun _ _ _ => trivial
  obtain ⟨hlater, hends⟩ := hkeeps trivial
  exact ⟨hlater.place, hends⟩

/-- A call keeps the place, and ends with a value or an error unless the bound is too low. -/
theorem invoke_keeps_place (bound : Nat) (f : Callable) (args : List Value) (span : Span)
    (m : Machine) :
    let r := (Construct.invoke (Node.evalWithin bound) f args span).run m
    m.SamePlace r.2 ∧
      ((∃ v, r.1 = .ok v) ∨ (∃ e, r.1 = .error (.error e)) ∨ r.1 = .error .exhausted) := by
  have hcall : Construct.SettlesWith Discipline.free () ⟨0⟩ (Discipline.free.Carries ()) m
      (Construct.invoke (Node.evalWithin bound) f args span) :=
    Construct.invoke_settles (Node.evalWithin_keeps Discipline.free free_open bound)
      (fun _ => trivial) trivial (Discipline.free_carries _ _)
      fun v _ => Discipline.free_carries _ v
  obtain ⟨hlater, hends⟩ := hcall trivial
  refine ⟨hlater.place, ?_⟩
  generalize ((Construct.invoke (Node.evalWithin bound) f args span).run m).1 = outcome at hends
  rcases outcome with signal | v
  · cases signal with
    | error e => exact .inr (.inl ⟨e, rfl⟩)
    | exhausted => exact .inr (.inr rfl)
    | _ => exact hends.elim
  · exact .inl ⟨v, rfl⟩

/-- A program that is started outside of all loops keeps the place, and comes to its end unless the
bound is too low. -/
theorem program_keeps_place (bound : Nat) (scope : ScopeId) (root : Node) {m : Machine}
    (hdepth : m.loopDepth = 0) :
    let r := (Construct.program (Node.evalWithin bound) scope root).run m
    m.SamePlace r.2 ∧ ((∃ result, r.1 = .ok result) ∨ r.1 = .error .exhausted) := by
  have hruns : Discipline.free.Runs () m.store scope root := trivial
  obtain ⟨hlater, hends⟩ := Construct.program_finishes
    (Node.evalWithin_keeps Discipline.free free_open bound) hdepth hruns trivial
  refine ⟨hlater.place, ?_⟩
  generalize ((Construct.program (Node.evalWithin bound) scope root).run m).1 = outcome at hends
  rcases outcome with signal | result
  · exact .inr (congrArg Except.error hends)
  · exact .inl ⟨result, rfl⟩

/-! ## Between runs -/

/-- What a run does to the state is what the program does, if the source can be read. -/
theorem Machine.runWithin_state {P : Machine → Prop} {bound : Nat} {scope : ScopeId}
    {source : Source} (hm : P m)
    (hprogram : ∀ root, Node.ofSource source = .ok root →
      P ((Construct.program (Node.evalWithin bound) scope root).run m).2) :
    P (m.runWithin bound scope source).2 := by
  unfold Machine.runWithin
  split
  · exact hm
  · exact hm
  · next root hroot =>
    have hafter := hprogram root hroot
    rcases hrun : (Construct.program (Node.evalWithin bound) scope root).run m with
      ⟨_ | _ | _, m'⟩
    all_goals
      rw [hrun] at hafter
      exact hafter

/-- A run that is started outside of all loops keeps the place, whether its source can be read or
not. -/
theorem runWithin_keeps_place (bound : Nat) {m : Machine} (scope : ScopeId) (source : Source)
    (hdepth : m.loopDepth = 0) : m.SamePlace (m.runWithin bound scope source).2 :=
  m.runWithin_state (.refl m) fun root _ => (program_keeps_place bound scope root hdepth).1

/-- The states between runs.  The host starts with a fresh state, runs sources in scopes of its
choice, one after the other, and may change store, console and workspace in between. -/
inductive Machine.Idle : Machine → Prop where
  | start (console : Console) (workspace : Workspace) : Idle (.start console workspace)
  | host {m : Machine} (store : Store) (console : Console) (workspace : Workspace) :
    Idle m → Idle { m with store, console, workspace }
  | run {m : Machine} (bound : Nat) (scope : ScopeId) (source : Source) :
    Idle m → Idle (m.runWithin bound scope source).2

/-- Between runs no call, loop or import is in progress. -/
theorem Machine.Idle.place {m : Machine} (h : m.Idle) :
    m.contexts = #[programContext] ∧ m.loopDepth = 0 ∧ m.importing = [] := by
  induction h with
  | start => exact ⟨rfl, rfl, rfl⟩
  | host _ _ _ _ ih => exact ih
  | run bound scope source _ ih =>
    obtain ⟨hcontexts, hdepth, himporting⟩ := ih
    have hplace := runWithin_keeps_place bound scope source hdepth
    exact ⟨hplace.contexts.trans hcontexts, hplace.loopDepth.trans hdepth,
      hplace.importing.trans himporting⟩

/-! ## Balance -/

/-- **Evaluation is balanced.**  Evaluating a node, from any state and to any outcome, ends with the
calls, loops and imports in progress that it started with, and ends with a loop signal only if a
loop was around it.  A call ends with a value or an error, unless the bound was too low for it.  So
no program that is started between runs is left by a loop signal. -/
theorem evalWithin_balanced (bound : Nat) :
    (∀ (scope : ScopeId) (node : Node) (m : Machine),
      let r := (Node.evalWithin bound scope node).run m
      m.SamePlace r.2 ∧
        (r.1 = .error .broke ∨ r.1 = .error .continued → 0 < m.loopDepth) ∧
        r.1 ≠ .error .unreachable) ∧
    (∀ (f : Callable) (args : List Value) (span : Span) (m : Machine),
      let r := (Construct.invoke (Node.evalWithin bound) f args span).run m
      m.SamePlace r.2 ∧
        ((∃ v, r.1 = .ok v) ∨ (∃ e, r.1 = .error (.error e)) ∨ r.1 = .error .exhausted)) ∧
    (∀ m : Machine, m.Idle → ∀ (scope : ScopeId) (root : Node),
      let r := (Construct.program (Node.evalWithin bound) scope root).run m
      m.SamePlace r.2 ∧ ((∃ result, r.1 = .ok result) ∨ r.1 = .error .exhausted)) := by
  refine ⟨fun scope node m => ?_, invoke_keeps_place bound,
    fun m hidle scope root => program_keeps_place bound scope root hidle.place.2.1⟩
  obtain ⟨hplace, hends⟩ := evalWithin_keeps_place bound scope node m
  refine ⟨hplace, ?_, ?_⟩
  · rintro (hr | hr)
    · rw [hr] at hends
      exact hends
    · rw [hr] at hends
      exact hends
  · intro hr
    rw [hr] at hends
    exact hends

/-- A `break` in a loop is on its way to that loop; a program that is started after one that failed
on a `break` outside of loops comes to its end all the same. -/
theorem break_leaves_evaluation_balanced :
    let m : Machine := { Machine.start default .memory with loopDepth := 1 }
    let failed := ((Machine.start default .memory).runWithin 2 ⟨0⟩ ⟨"main", "break"⟩).2
    let r := (Node.evalWithin 1 ⟨0⟩ (.mk .breakLoop default)).run m
    (r.1 = .error .broke ∧ 0 < m.loopDepth ∧ m.SamePlace r.2) ∧
      failed.SamePlace ((Construct.program (Node.evalWithin 1) ⟨0⟩ default).run failed).2 := by
  intro m failed r
  obtain ⟨hnode, -, hprogram⟩ := evalWithin_balanced 1
  obtain ⟨hplace, hsignal, -⟩ := hnode ⟨0⟩ (.mk .breakLoop default) m
  have hidle : failed.Idle := .run 2 ⟨0⟩ _ (.start default .memory)
  exact ⟨⟨rfl, hsignal (.inl rfl), hplace⟩, (hprogram failed hidle ⟨0⟩ default).1⟩

end BpScript
