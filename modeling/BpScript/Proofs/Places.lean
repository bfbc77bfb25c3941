import BpScript.Proofs.Code
import BpScript.Proofs.Events
import BpScript.Proofs.Reports

/-!
# The places of errors

An error is about a stretch of some text, and so is each call that it has left.  The code of a
session was read from the programs that were run in it and from the modules they imported; nothing
else is ever evaluated, so an error points into one of these files.  Which one it is depends on the
code alone: what goes wrong in the body of a function is reported where the function was written,
whoever calls it and whenever.  Built-in functions are written nowhere, and have their errors at the
call.

* `Node.ReadFrom`, `Function.WrittenIn` — which file code is from.
* `Versions.single` — a single version of the evaluator, to see where its errors are.
* `Diagnostic.LeavesCodeOf` — errors that come out of the code of a file.
* `Machine.Imports`, `Machine.After` — the files of a run, and of all runs before a state.
* **`errors_point_into_files`** — the errors of all runs, and those of all calls.
-/

namespace BpScript

open Versions

/-! ## Code and files -/

/-- The node was read from the file. -/
def Node.ReadFrom (file : Source) (node : Node) : Prop :=
  ∃ root, Node.ofSource file = .ok root ∧ root.Contains node

/-- The function was written in the file: its body was read from there. -/
def Function.WrittenIn (file : Source) (definition : Function) : Prop :=
  definition.body.ReadFrom file

/-- The names that a form looks up stand in it. -/
theorem Form.mem_spans_of_mem_lookups {form : Form} {name : Ident} (h : name ∈ form.lookups) :
    name.span ∈ Part.spans form.contents := by
  have hpart : .name name ∈ form.contents := by
    cases form
    all_goals simp [lookups] at h
    all_goals simp [h]
  exact List.mem_filterMap.2 ⟨_, hpart, rfl⟩

namespace Node.ReadFrom

variable {file : Source} {node : Node}

theorem nests (h : node.ReadFrom file) : node.Nests file := by
  obtain ⟨root, hroot, hnode⟩ := h
  obtain ⟨tokens, htokens, hparse⟩ := parse_of_ofSource hroot
  exact spans_nest htokens hparse node hnode

theorem isIn (h : node.ReadFrom file) :
    node.span.IsIn file ∧ ∀ name ∈ node.form.lookups, name.span.IsIn file :=
  ⟨h.nests.isIn, fun _ hname => h.nests.part_isIn _ (Form.mem_spans_of_mem_lookups hname)⟩

theorem all (h : node.ReadFrom file) : node.All (ReadFrom file) := by
  obtain ⟨root, hroot, hnode⟩ := h
  exact fun _ hinner => ⟨root, hroot, hnode.trans hinner⟩

theorem part {part : Node} (h : node.ReadFrom file) (hpart : part ∈ node.form.parts) :
    part.ReadFrom file :=
  (h.all.of_mem_contents (Form.mem_contents_of_mem_parts hpart)).self

end Node.ReadFrom

/-! ## A single version -/

/-- The evaluator alone.  Its errors are raised at `points`, and `errors` is what is known of them
at a node. -/
def Versions.single (points : Span → Prop) (errors : Diagnostic → Prop)
    (fresh : ∀ fault {span}, points span → errors (Fault.locate fault span)) : Versions Unit where
  most := ⊤
  strict := ∅
  strict_le := fun _ h => h.elim
  mayExhaust := True
  points
  errors := fun e => errors (e ())
  fresh

/-- Nothing is known. -/
def Versions.blank : Versions Unit :=
  .single (fun _ => True) (fun _ => True) fun _ _ _ => trivial

namespace Versions

variable {points : Span → Prop} {errors : Diagnostic → Prop}
  {fresh : ∀ fault {span}, points span → errors (Fault.locate fault span)} {m m' : Machine}

theorem blank_uniform : blank.Uniform :=
  ⟨fun _ => trivial, fun e => ⟨fun _ => ⟨e (), rfl⟩, fun _ => trivial⟩⟩

theorem blank_hosts : (single points errors fresh).Hosts blank :=
  ⟨rfl, rfl, id⟩

theorem blank_visits (bound : Nat) (m : Machine) (node : Node) :
    blank.Visits m (fun _ => Node.evalWithin bound) node := by
  have hvisits : blank.Visits m (fun _ => Node.evalGuarded (fun _ => pure ()) bound) node :=
    Node.evalGuarded_agree blank_uniform trivial (fun _ _ => .pure) bound m node
  rwa [Node.evalGuarded_pure] at hvisits

/-- What is known of the errors of a step that agrees with itself. -/
theorem Agree.error {α : Type} {step : Eval α} {e : Diagnostic}
    (h : (single points errors fresh).Agree m fun _ => step)
    (hrun : step.run m = (.error (.error e), m')) : errors e := by
  rcases h with ⟨F, hF, -⟩ | ⟨outcome, after, -, halike, hall⟩
  · exact hF.elim
  · have houtcome : outcome () = .error (.error e) :=
      congrArg Prod.fst ((Filter.eventually_top.1 hall ()).symm.trans hrun)
    cases halike with
    | value a => cases houtcome
    | error e' he =>
      cases houtcome
      exact he
    | signal signal hs _ =>
      cases houtcome
      exact absurd rfl (hs e)

end Versions

/-! ## Errors of code -/

/-- The error comes out of the code of a file.  It was raised there, or else the last call it has
left was made there. -/
structure Diagnostic.LeavesCodeOf (file : Source) (e : Diagnostic) : Prop where
  raised : e.trace = #[] → e.span.IsIn file
  passed : ∀ frame, e.trace.back? = some frame → frame.span.IsIn file

namespace Diagnostic.LeavesCodeOf

variable {file : Source} {span : Span}

theorem locate (fault : Fault) (h : span.IsIn file) : (fault.locate span).LeavesCodeOf file :=
  ⟨fun _ => h, fun _ hframe => by cases hframe⟩

theorem leaving (e : Diagnostic) (caller : String) (h : span.IsIn file) :
    (e.leaving caller span).LeavesCodeOf file := by
  refine ⟨fun htrace => absurd htrace Array.push_ne_empty, fun frame hframe => ?_⟩
  rw [Diagnostic.leaving, Array.back?_push] at hframe
  cases hframe
  exact h

end Diagnostic.LeavesCodeOf

/-- The evaluator on the code of a file. -/
def Versions.codeOf (file : Source) : Versions Unit :=
  .single (·.IsIn file) (·.LeavesCodeOf file) fun fault _ h => .locate fault h

/-- **The code of a file** has its errors in this file.  What it calls and what it imports may have
them elsewhere, but such an error has left the call, or is reported by the import as one of its
own. -/
theorem Versions.codeOf_visits {file : Source} : ∀ (bound : Nat) (m : Machine) {node : Node},
    node.ReadFrom file → (codeOf file).Visits m (fun _ => Node.evalWithin bound) node
  | 0, _, _, h => ⟨h.isIn.1, fun _ _ _ => .throw_exhausted trivial⟩
  | bound + 1, _, node, h => by
    refine ⟨h.isIn.1, fun scope m _ => ?_⟩
    show (codeOf file).Agree m fun _ => Node.evalForm (bound + 1) (Node.evalWithin bound) scope node
    simp only [Node.evalForm_eq, Construct.invoke_eq, Construct.load_eq]
    refine Node.evalFormBy_agree h.isIn.1 h.isIn.2
      (fun part hpart => codeOf_visits bound m (h.part hpart)) (fun f args m₁ _ => ?_)
      (fun _ _ _ lib m₁ _ => ?_) (.inl ⟨trivial, bound + 1, fun _ => rfl⟩)
    · refine Construct.invokeBy_agree h.isIn.1 blank_hosts (fun e caller _ => ?_) fun args _ => ?_
      · exact .leaving (e ()) caller h.isIn.1
      · exact Construct.apply_agree trivial fun c _ => blank_visits bound _ c.definition.body
    · exact Construct.loadBy_agree h.isIn.1 fun path text inner m₂ _ _ =>
        Construct.runModule_agree blank_hosts (fun e _ => ⟨e (), rfl⟩) trivial fun root _ =>
          blank_visits bound _ root

/-- What goes wrong in the body of a function is reported where the function was written. -/
theorem Function.WrittenIn.leaves {file : Source} {c : Closure} (h : c.definition.WrittenIn file)
    {bound : Nat} {args : List Value} {m m' : Machine} {e : Diagnostic}
    (hrun : (Construct.runClosure (Node.evalWithin bound) c args).run m =
      (.error (.error e), m')) : e.LeavesCodeOf file := by
  have hagree : (codeOf file).Agree m fun _ =>
      Construct.runClosure (Node.evalWithin bound) c args :=
    Construct.runClosure_agree (codeOf_visits bound m h)
  exact hagree.error hrun

/-- The evaluator at calls of built-in functions, whose errors are all at one place. -/
def Versions.callAt (span : Span) : Versions Unit :=
  .single (· = span) (fun e => e.span = span ∧ ∀ frame ∈ e.trace, frame.span = span)
    fun _ _ h => ⟨h, fun _ hframe => absurd hframe (Array.not_mem_empty _)⟩

/-- A built-in function has its errors at the call. -/
theorem Construct.invoke_native_errors {visit : Visit} {n : Native} {args : List Value}
    {span : Span} {m m' : Machine} {e : Diagnostic}
    (hrun : (invoke visit (.native n) args span).run m = (.error (.error e), m')) :
    e.span = span ∧ ∀ frame ∈ e.trace, frame.span = span := by
  have hagree : (callAt span).Agree m fun _ => invoke visit (.native n) args span := by
    simp only [invoke_eq]
    refine invokeBy_agree rfl (.refl _) (fun e caller he => ⟨he.1, fun frame hframe => ?_⟩)
      fun args _ => apply_agree rfl fun c hc => by cases hc
    rcases Array.mem_push.1 hframe with hframe | rfl
    · exact he.2 frame hframe
    · rfl
  exact hagree.error hrun

/-! ## Sessions -/

/-- The node was read from one of the files. -/
def Node.ReadFromAny (files : Set Source) (node : Node) : Prop :=
  ∃ file ∈ files, node.ReadFrom file

/-- The span is a stretch of one of the files. -/
def Span.IsInAny (files : Set Source) (span : Span) : Prop :=
  ∃ file ∈ files, span.IsIn file

/-- All functions in the store were written in these files. -/
def Store.WrittenIn (files : Set Source) (s : Store) : Prop :=
  ∀ v, s.Stored v → ∀ c, v.ref? = some (.closure c) → ∃ file ∈ files, c.definition.WrittenIn file

theorem Node.ReadFromAny.isInAny {files : Set Source} {node : Node} (h : node.ReadFromAny files) :
    node.span.IsInAny files ∧ ∀ name ∈ node.form.lookups, name.span.IsInAny files := by
  obtain ⟨file, hfile, hread⟩ := h
  exact ⟨⟨file, hfile, hread.isIn.1⟩, fun name hname => ⟨file, hfile, hread.isIn.2 name hname⟩⟩

theorem Node.reads_readFromAny (files : Set Source) : Node.Reads files (ReadFromAny files) :=
  fun file hfile root hroot _ hnode => ⟨file, hfile, root, hroot, hnode⟩

/-- A function written in one of the files runs code of these files only. -/
theorem Store.writtenIn_iff_runs {files : Set Source} {s : Store} :
    s.WrittenIn files ↔ s.Runs (Node.ReadFromAny files) := by
  constructor
  · intro h v hv r hr
    cases r with
    | closure c =>
      obtain ⟨file, hfile, hwritten⟩ := h v hv c hr
      exact fun inner hinner => ⟨file, hfile, hwritten.all inner hinner⟩
    | _ => trivial
  · intro h v hv c hc
    exact (h v hv (.closure c) hc).self

theorem Store.WrittenIn.mono {files files' : Set Source} {s : Store} (h : s.WrittenIn files)
    (hfiles : files ⊆ files') : s.WrittenIn files' := by
  intro v hv c hc
  obtain ⟨file, hfile, hwritten⟩ := h v hv c hc
  exact ⟨file, hfiles hfile, hwritten⟩

/-- Only code of these files is evaluated. -/
def Discipline.files (files : Set Source) : Discipline Unit :=
  .code files (·.IsInAny files) (Node.ReadFromAny files) (fun _ _ => Node.reads_readFromAny files)
    Node.ReadFromAny.isInAny

namespace Machine

/-- A run of the source from this state imports the file. -/
def Imports (bound : Nat) (m : Machine) (scope : ScopeId) (source file : Source) : Prop :=
  ∃ root, Node.ofSource source = .ok root ∧
    m.ComesTo (fun event => ∃ made, event = .made made (.module file)) bound scope root

/-- The files of a run: the program itself and the modules it imports. -/
def reads (bound : Nat) (m : Machine) (scope : ScopeId) (source : Source) : Set Source :=
  {file | file = source ∨ m.Imports bound scope source file}

/-- The states between runs, with the files of all runs before.  The host may do what it wants in
between, but it brings in no functions of scripts that were not written in these files. -/
inductive After : Machine → Set Source → Prop where
  | start (console : Console) (workspace : Workspace) : After (.start console workspace) ∅
  | host {m : Machine} {files : Set Source} {store : Store} (console : Console)
    (workspace : Workspace) : After m files → store.WrittenIn files →
    After { m with store, console, workspace } files
  | run {m : Machine} {files : Set Source} (bound : Nat) (scope : ScopeId) (source : Source) :
    After m files →
    After (m.runWithin bound scope source).2 (files ∪ m.reads bound scope source)

variable {m : Machine} {files : Set Source}

theorem After.idle (h : m.After files) : m.Idle := by
  induction h with
  | start console workspace => exact .start console workspace
  | host console workspace _ _ ih => exact .host _ console workspace ih
  | run bound scope source _ ih => exact .run bound scope source ih

/-- A run evaluates only code of the files before, of the program and of the modules it imports. -/
theorem program_reads (bound : Nat) {scope : ScopeId} {source : Source} {root : Node}
    (hdepth : m.loopDepth = 0) (hroot : Node.ofSource source = .ok root) :
    let D := Discipline.files (files ∪ m.reads bound scope source)
    Construct.Finishes D () scope (fun _ result => ∀ e, result = .error e → D.Locates () e) m
      (Construct.program (Node.evalWithin bound) scope root) := by
  have hmeets : m.Meets (fun _ event =>
      ∀ file : {file // file ∉ files ∪ m.reads bound scope source},
        ¬∃ made, event = .made made (.module file.1)) bound scope root :=
    meets_of_not_comesTo fun file hcomes => file.2 (.inr (.inr ⟨root, hroot, hcomes⟩))
  refine hmeets.finishes (fun _ hevent => ?_) (fun hasked _ => ?_) hdepth ?_
  · obtain ⟨made, hevent⟩ := hevent
    cases hevent
  · rintro file rfl
    by_contra hfile
    exact hasked ⟨file, hfile⟩ ⟨_, rfl⟩
  · exact Node.reads_readFromAny _ source (.inr (.inl rfl)) root hroot

/-- The store holds code of these files only. -/
theorem After.writtenIn (h : m.After files) : m.store.WrittenIn files := by
  induction h with
  | start console workspace => exact fun v hv => absurd hv Store.not_stored_empty
  | host _ _ _ hstore _ => exact hstore
  | @run m files bound scope source h ih =>
    have hbefore := ih.mono (Set.subset_union_left (t := m.reads bound scope source))
    refine m.runWithin_state (P := fun m => m.store.WrittenIn _) hbefore fun root hroot => ?_
    obtain ⟨-, hdepth, -⟩ := h.idle.place
    have hsound := Store.writtenIn_iff_runs.1 hbefore
    exact Store.writtenIn_iff_runs.2 (program_reads bound hdepth hroot hsound).1.sound

end Machine

/-- The places of an error: its own, and those of the calls it has left. -/
def Diagnostic.spans (e : Diagnostic) : List Span :=
  e.span :: e.trace.toList.map (·.span)

/-- What a run reports points into its files. -/
theorem Machine.After.run_isInAny {m : Machine} {files : Set Source} (h : m.After files)
    {bound : Nat} {scope : ScopeId} {source : Source} {e : Diagnostic}
    (hrun : (m.runWithin bound scope source).1 = .error e) :
    ∀ span ∈ e.spans, span.IsInAny (files ∪ m.reads bound scope source) := by
  obtain ⟨-, hdepth, -⟩ := h.idle.place
  have hsound := Store.writtenIn_iff_runs.1
    (h.writtenIn.mono (Set.subset_union_left (t := m.reads bound scope source)))
  unfold runWithin at hrun
  split at hrun
  · next e' hsource =>
    -- the text could not be read
    cases hrun
    have hreport := Node.ofSource_reportsOn hsource
    intro span hspan
    rw [Diagnostic.spans, hreport.trace] at hspan
    obtain rfl := List.mem_singleton.1 hspan
    exact ⟨source, .inr (.inl rfl), hreport.isIn⟩
  · cases hrun
  · next root hroot =>
    have hends := (program_reads bound hdepth hroot hsound).2
    split at hrun
    · cases hrun
    · next e' _ hprogram =>
      cases hrun
      rw [hprogram] at hends
      obtain ⟨hspan, hframes⟩ := hends e rfl
      intro span hmem
      rcases List.mem_cons.1 hmem with rfl | hmem
      · exact hspan
      · obtain ⟨frame, hframe, rfl⟩ := List.mem_map.1 hmem
        exact hframes frame (Array.mem_toList_iff.1 hframe)
    · cases hrun

/-- **Errors point into files.**  However a session has come about, every function in it was written
in a file of one of its runs.  The errors of a further run, and the calls these have left, are at
stretches of these files, of the program that is run, or of the modules it imports.  What goes wrong
in the body of a function comes out of the code of the file that the function was written in, in
whatever state it is called and on whatever arguments.  What goes wrong in a built-in function is at
the call. -/
theorem errors_point_into_files {m : Machine} {files : Set Source} (h : m.After files) :
    m.store.WrittenIn files ∧
    (∀ bound scope source e, (m.runWithin bound scope source).1 = .error e →
      ∀ span ∈ e.spans, ∃ file ∈ files ∪ m.reads bound scope source, span.IsIn file) ∧
    (∀ file c, c.definition.WrittenIn file → ∀ bound args m e m',
      (Construct.runClosure (Node.evalWithin bound) c args).run m = (.error (.error e), m') →
        e.LeavesCodeOf file) ∧
    (∀ bound n args span m e m',
      (Construct.invoke (Node.evalWithin bound) (.native n) args span).run m =
        (.error (.error e), m') → e.span = span ∧ ∀ frame ∈ e.trace, frame.span = span) :=
  ⟨h.writtenIn, fun _ _ _ _ => h.run_isInAny, fun _ _ hc _ _ _ _ _ => hc.leaves,
    fun _ _ _ _ _ _ _ => Construct.invoke_native_errors⟩

/-- The error that a run ends with, if any. -/
def RunOutcome.error? : RunOutcome → Option Diagnostic
  | .error e => some e
  | _ => none

/-- A function that one program leaves behind is called by the next one.  Its error is in the first
file, and the call it has left is in the second one. -/
theorem stale_function_error_points_into_files :
    let first : Source := ⟨"first", "func f(x)\n  x + y\nend"⟩
    let second : Source := ⟨"second", "let a = 1\nf(a)"⟩
    let m := (Session.start default .memory).machine
    let after := (m.runWithin 9 ⟨0⟩ first).2
    let files := ∅ ∪ m.reads 9 ⟨0⟩ first
    ∃ e, (after.runWithin 9 ⟨0⟩ second).1 = .error e ∧
      (∀ span ∈ e.spans, ∃ file ∈ files ∪ after.reads 9 ⟨0⟩ second, span.IsIn file) ∧
      e.span.source = first ∧ e.trace.map (·.span.source) = #[second] := by
  intro first second m after files
  have hstart : m.After ∅ :=
    .host _ _ (.start default .memory) (Store.writtenIn_iff_runs.2 (Session.start_runs _ _))
  have hafter : after.After files := hstart.run 9 ⟨0⟩ first
  have herror : ((after.runWithin 9 ⟨0⟩ second).1.error?.map fun e =>
      (e.span.source, e.trace.map (·.span.source))) = some (first, #[second]) := by
    decide +kernel
  rcases hrun : (after.runWithin 9 ⟨0⟩ second).1 with v | e | _
  · rw [hrun] at herror
    cases herror
  · rw [hrun] at herror
    obtain ⟨hspan, htrace⟩ := Prod.mk.inj (Option.some.inj herror)
    exact ⟨e, rfl, (errors_point_into_files hafter).2.1 9 ⟨0⟩ second e hrun, hspan, htrace⟩
  · rw [hrun] at herror
    cases herror

end BpScript
