import BpScript.Proofs.Versions

/-!
# The stacks of a run

The state of a run notes the calls and modules in progress by name, and the modules by path as well.
Calls look at these notes before they are made, imports look at the paths; nothing else does, and
nothing looks at both.  At every point of a run the notes are what is in progress around the point.

* `Activity.calls`, `Activity.paths` — what is in progress around a point, counted apart from the
  notes.
* `Machine.Consistent` — the notes are right, there are not too many calls, and no module is
  imported by itself.
* **`stacks_consistent`** — every point of every run.
-/

namespace BpScript

/-- The number of calls in progress, those of built-in functions included. -/
def Activity.calls (around : List Activity) : Nat :=
  around.countP fun
    | .call _ => true
    | .module _ => false

/-- The paths of the modules in progress, innermost first. -/
def Activity.paths (around : List Activity) : List String :=
  around.filterMap fun
    | .call _ => none
    | .module path => some path

/-- What the state notes is what is in progress around a point: at the bottom the program, above it
a context for each call and each module, and the paths of the modules.  There is room for the calls,
and no path stands for the same module as another one. -/
def Machine.Consistent (around : List Activity) (m : Machine) : Prop :=
  m.contexts[0]? = some programContext ∧
    m.contexts.size = 1 + Activity.calls around + m.importing.length ∧
    Activity.calls around ≤ maxCallDepth ∧
    m.importing = Activity.paths around ∧
    m.importing.Pairwise fun p q => Path.components p ≠ Path.components q

instance (around : List Activity) (m : Machine) : Decidable (m.Consistent around) :=
  inferInstanceAs (Decidable (_ ∧ _ ∧ _ ∧ _ ∧ _))

/-- Asks for consistent stacks at every point. -/
def consistentStacks : Check :=
  fun around m _ => m.Consistent around

namespace Machine.Consistent

variable {around : List Activity} {m m' : Machine}

theorem same (h : m.Consistent around) (hm : m.SameStacks m') : m'.Consistent around := by
  unfold Consistent
  rw [hm.contexts, hm.importing]
  exact h

theorem getElem?_push {name : String} (h : m.contexts[0]? = some programContext) :
    (m.contexts.push name)[0]? = some programContext := by
  obtain ⟨hsize, -⟩ := Array.getElem?_eq_some_iff.1 h
  rw [Array.getElem?_push_lt hsize]
  exact h ▸ (Array.getElem?_eq_getElem hsize).symm

/-- A call is made only if all that is in progress leaves room for it. -/
theorem call {name : String} (h : m.Consistent around) (hdepth : m.contexts.size ≤ maxCallDepth) :
    (m.entering name).Consistent (.call name :: around) := by
  obtain ⟨hbottom, hsize, -, hpaths, hapart⟩ := h
  have hcalls : Activity.calls (.call name :: around) = Activity.calls around + 1 := by
    simp [Activity.calls]
  refine ⟨getElem?_push hbottom, ?_, ?_, hpaths, hapart⟩
  · rw [hcalls]
    simp only [entering, Array.size_push]
    omega
  · omega

/-- A module is run only if it is not being imported. -/
theorem module {path name : String} (h : m.Consistent around)
    (hpath : m.importing.any (Path.same path) = false) :
    ((m.enteringImport path).entering name).Consistent (.module path :: around) := by
  obtain ⟨hbottom, hsize, hroom, hpaths, hapart⟩ := h
  have hcalls : Activity.calls (.module path :: around) = Activity.calls around := by
    simp [Activity.calls]
  refine ⟨getElem?_push hbottom, ?_, hcalls ▸ hroom, congrArg (path :: ·) hpaths, ?_⟩
  · rw [hcalls]
    simp only [entering, enteringImport, Array.size_push, List.length_cons]
    omega
  · refine List.pairwise_cons.2 ⟨fun other hother hsame => ?_, hapart⟩
    have hdiffers := List.any_eq_false.1 hpath other hother
    exact hdiffers (decide_eq_true hsame)

end Machine.Consistent

/-- **The stacks are consistent at every point of every run.**  This holds of runs from a fresh
state and of those that come after others, whatever is run; so no module is ever run inside its own
import. -/
theorem stacks_consistent {m : Machine} (h : m.Idle) (bound : Nat) (scope : ScopeId) (root : Node) :
    m.Always consistentStacks bound scope root := by
  obtain ⟨hcontexts, hdepth, himporting⟩ := h.place
  have hstart : m.Consistent [] := by
    unfold Machine.Consistent
    rw [hcontexts, himporting]
    exact ⟨rfl, rfl, Nat.zero_le _, rfl, .nil⟩
  refine Machine.always_of_watches none (fun around m => m.Consistent around)
    ⟨fun _ h => .inl (decide_eq_true h), .same, fun _ => .call, fun _ => .module⟩ hstart ?_
  rw [Node.watch_none]
  rcases (program_keeps_place bound scope root hdepth).2 with ⟨result, hends⟩ | hends <;>
    simp [hends]

/-- After a run that failed, a function of the next script imports a library, which imports another
one and calls a function of it.  At some point both modules are in progress. -/
theorem import_in_call_consistent :
    let path (lib : String) := Path.components (Workspace.memory.resolveLib lib)
    let files : Workspace := { Workspace.memory with
      storage := .memory [
        (path "outer", "import \"inner\" as inner\npublic let twin = inner.twice(\"a\")"),
        (path "inner", "let seen = [len(\"a\")]\npublic func twice(x) => x + x")] }
    let session := Session.start default files
    let failed := (session.machine.runWithin 2 session.scope ⟨"main", "break"⟩).2
    let source : Source :=
      ⟨"main", "func twin()\n  import \"outer\" as outer\n  return outer.twin\nend\ntwin()"⟩
    let root := (Node.ofSource source).toOption.getD default
    Node.ofSource source = .ok root ∧
    failed.Always consistentStacks 12 session.scope root ∧
    ¬failed.Always (fun around _ _ => (Activity.paths around).length < 2) 12 session.scope
      root := by
  intro path files session failed source root
  have hidle : failed.Idle := .run 2 session.scope _ (.host _ _ _ (.start default files))
  refine ⟨?_, stacks_consistent hidle 12 session.scope root, fun h => ?_⟩
  · have hread : (Node.ofSource source).toOption.isSome = true := by decide +kernel
    cases hroot : Node.ofSource source with
    | error failure =>
      rw [hroot] at hread
      cases hread
    | ok tree =>
      have htree : root = tree := congrArg (fun r => r.toOption.getD default) hroot
      rw [htree]
  · have hends := congrArg (fun r => r.1.toOption.isSome) (h (throw .unreachable))
    exact absurd hends (by decide +kernel)

/-- The alarm does go off where the program is missing from the bottom of the contexts. -/
example : ¬Machine.Always consistentStacks 1 { Machine.start default .memory with contexts := #[] }
    ⟨0⟩ (.mk .null default) := by
  intro h
  cases congrArg Prod.fst (h (throw .unreachable))

end BpScript
