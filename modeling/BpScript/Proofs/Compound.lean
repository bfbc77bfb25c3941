import BpScript.Proofs.Run

/-!
# Compound assignment

`p += e` is meant to be `p = p + e`, evaluated in one go, and `p -= e` likewise.  For a name it is,
whatever `e` does: both read the old value first.  A dotted path is read in two parts, the objects
on the way before `e` and the last entry after it, so the two agree only where `e` leaves that entry
as it found it.

* `Target` — what can stand on the left: a name or a dotted path.
* `Node.ReadsPath` — the nodes that read a target, wherever they stand in the source.
* `Target.Steady` — the entry at the end of a path is there, and `e` does not change it.
* **`compound_eq_plain`** — in a steady state the two forms give the same outcome and the same
  state.
* **`Compound.path_differs`** — a path, an operand and a state with different values for the two.
-/

namespace BpScript

/-- The operator that an assignment combines the old value with. -/
def AssignOp.operator? : AssignOp → Option BinaryOp
  | .set => none
  | .add => some .add
  | .subtract => some .subtract

theorem AssignOp.assign_eq_binary {op : AssignOp} {operator : BinaryOp}
    (h : op.operator? = some operator) (old value : Value) :
    Operator.assign op old value = Operator.binary operator old value := by
  cases op <;> cases h <;> rfl

/-! ## Targets -/

/-- What an assignment can give a new value: a name, or an entry behind a dotted path. -/
inductive Target where
  | name (ident : Ident)
  | path (first second : Ident) (rest : List Ident)

namespace Target

/-- The name a target starts with. -/
def first : Target → String
  | name ident => ident.name
  | path first _ _ => first.name

/-- The names behind the first one. -/
def further : Target → List String
  | name _ => []
  | path _ second rest => (second :: rest).map (·.name)

/-- The assignment to a target. -/
def assign (op : AssignOp) (value : Node) : Target → Form
  | name ident => .assign ident op value false false
  | path first second rest => .memberAssign (first :: second :: rest) op value

end Target

/-- The nodes that read a name, or an entry behind a dotted path.  Where they stand in the source
does not matter. -/
inductive Node.ReadsPath : Node → (first : String) → (further : List String) → Prop where
  | access {node : Node} {ident : Ident} : node.form = .access ident →
      ReadsPath node ident.name []
  | member {node target : Node} {ident : Ident} {first : String} {further : List String} :
      node.form = .member target ident → ReadsPath target first further →
      ReadsPath node first (further ++ [ident.name])

/-- No name is one of a method of objects, which would hide the entry. -/
def Methodless (names : List String) : Prop :=
  ∀ name ∈ names, ∀ method : ObjectMethod, method.name ≠ name

namespace Machine

/-- The entry of a value that is an object. -/
def entry? (m : Machine) (name : String) : Value → Option Value
  | .object owner => (m.store.entries owner).get? name
  | _ => none

/-- Where a dotted path leads. -/
def follow? (m : Machine) (scope : ScopeId) (first : String) (further : List String) :
    Option Value :=
  further.foldl (fun v name => v.bind (m.entry? name))
    ((m.store.lookup scope first).map (·.value))

theorem follow?_concat (m : Machine) (scope : ScopeId) (first : String) (further : List String)
    (name : String) :
    m.follow? scope first (further ++ [name]) =
      (m.follow? scope first further).bind (m.entry? name) := by
  simp [follow?]

end Machine

/-- Without a method of this name, a member of an object is its entry. -/
theorem Value.run_member {receiver : Value} {name : String} {v : Value} {m : Machine}
    (hname : ∀ method : ObjectMethod, method.name ≠ name)
    (hentry : m.entry? name receiver = some v) :
    (receiver.member name).run m = (.ok v, m) := by
  cases receiver with
  | object owner =>
    have hnone : (Value.object owner).methods.find? (·.name = name) = none := by
      rw [List.find?_eq_none]
      intro method hmethod
      obtain ⟨own, -, rfl⟩ := List.mem_map.1 hmethod
      exact decide_eq_false (hname own) ▸ Bool.false_ne_true
    have hentries : (Action.entries owner).run m = (.ok (m.store.entries owner), m) := rfl
    unfold Value.member
    rw [hnone]
    show (Action.entries owner >>= _).run m = _
    rw [Step.run_bind_ok hentries, show (m.store.entries owner).get? name = some v from hentry]
    rfl
  | _ => cases hentry

/-- A bound name is looked up. -/
theorem Eval.run_lookup {m : Machine} {scope : ScopeId} {name : Ident} {binding : Binding}
    (h : m.store.lookup scope name.name = some binding) :
    (Eval.lookup scope name).run m = (.ok binding, m) := by
  unfold Eval.lookup
  rw [Step.run_bind_ok (Step.run_get m), h]
  rfl

/-- **A node that reads a path gives what the path leads to,** and changes nothing. -/
theorem Node.ReadsPath.run {node : Node} {first : String} {further : List String}
    (h : node.ReadsPath first further) {m : Machine} {scope : ScopeId} {v : Value}
    (hv : m.follow? scope first further = some v) (hmethods : Methodless further) {bound : Nat}
    (hbound : further.length < bound) : (Node.evalWithin bound scope node).run m = (.ok v, m) := by
  induction h generalizing v bound with
  | @access node ident hform =>
    obtain ⟨binding, hbinding, rfl⟩ := Option.map_eq_some_iff.1 hv
    cases bound with
    | zero => cases hbound
    | succ bound =>
      simp only [Node.evalWithin, Node.evalForm, hform]
      rw [Step.run_bind_ok (Eval.run_lookup hbinding)]
      rfl
  | @member node target ident first further hform _ ih =>
    rw [Machine.follow?_concat] at hv
    obtain ⟨receiver, hreceiver, hentry⟩ := Option.bind_eq_some_iff.1 hv
    cases bound with
    | zero => cases hbound
    | succ bound =>
      have htarget := ih hreceiver (fun name hname => hmethods name (by simp [hname]))
        (show further.length < bound by simpa using hbound)
      have hmember := Value.run_member (hmethods ident.name (by simp)) hentry
      simp only [Node.evalWithin, Node.evalForm, hform, Construct.member]
      rw [Step.run_bind_ok htarget, Eval.run_located, hmember]
      rfl

/-! ## The way to the last object -/

namespace Construct

/-- The object that holds the last name of a path, and that name. -/
def owner (scope : ScopeId) (first second : Ident) (rest : List Ident) :
    Eval (ObjectId × Ident) := do
  let root ← expectObject first (← Eval.lookup scope first).value
  ownerOf root second rest

theorem memberAssign_eq (visit : Visit) (scope : ScopeId) (first second : Ident) (rest : List Ident)
    (op : AssignOp) (value : Node) :
    memberAssign visit scope (first :: second :: rest) op value =
      owner scope first second rest >>= fun found => do
        let v ← visit scope value
        let updated ← match op with
          | .set => pure v
          | _ => do
            let old ← entryOf found.1 found.2
            Eval.located value.span (Operator.assign op old v)
        Eval.located value.span (Action.modifyEntries found.1 (·.set found.2.name updated))
        return updated := by
  refine Eq.trans ?_ (bind_assoc _ _ _).symm
  exact bind_congr fun found => (bind_assoc _ _ _).symm

/-- What a step of the way to the last object does: it ends with a value or an error, and the state
stays as it is. -/
def Looks {α : Type} (step : Eval α) (m : Machine) (P : α → Prop) : Prop :=
  (∃ a, step.run m = (.ok a, m) ∧ P a) ∨ ∃ signal, step.run m = (.error signal, m)

theorem Looks.bind {α β : Type} {step : Eval α} {k : α → Eval β} {m : Machine} {P : α → Prop}
    {Q : β → Prop} (h : Looks step m P) (hk : ∀ a, P a → Looks (k a) m Q) :
    Looks (step >>= k) m Q := by
  rcases h with ⟨a, hrun, ha⟩ | ⟨signal, hrun⟩
  · rcases hk a ha with ⟨b, hb, hQ⟩ | ⟨signal, hb⟩
    · exact .inl ⟨b, (Step.run_bind_ok hrun).trans hb, hQ⟩
    · exact .inr ⟨signal, (Step.run_bind_ok hrun).trans hb⟩
  · exact .inr ⟨signal, Step.run_bind_error hrun⟩

theorem looks_orRaise {α : Type} (value : Machine → Option α) (fault : Fault) (span : Span)
    (m : Machine) :
    Looks (get >>= fun m => Eval.orRaise (value m) fault span) m fun a => value m = some a := by
  have hrun : (get >>= fun m => Eval.orRaise (value m) fault span).run m =
      (Eval.orRaise (value m) fault span).run m := Step.run_bind_ok (Step.run_get m)
  cases h : value m with
  | some a => exact .inl ⟨a, by rw [hrun, h]; rfl, rfl⟩
  | none => exact .inr ⟨.error (fault.locate span), by rw [hrun, h]; rfl⟩

theorem looks_expectObject (name : Ident) (v : Value) (m : Machine) :
    Looks (expectObject name v) m fun object => v = .object object := by
  cases v with
  | object object => exact .inl ⟨object, rfl, rfl⟩
  | _ => exact .inr ⟨_, rfl⟩

theorem run_entryOf {object : ObjectId} {name : Ident} {m : Machine} {v : Value}
    (h : (m.store.entries object).get? name.name = some v) :
    (entryOf object name).run m = (.ok v, m) := by
  unfold entryOf
  rw [Step.run_bind_ok (Step.run_get m), h]
  rfl

/-- The rest of a path leads from an object to the entry that its owner holds. -/
theorem looks_ownerOf (m : Machine) (object : ObjectId) (segment : Ident) (rest : List Ident) :
    Looks (ownerOf object segment rest) m fun found =>
      ((segment :: rest).map (·.name)).foldl (fun v name => v.bind (m.entry? name))
        (some (.object object)) = (m.store.entries found.1).get? found.2.name := by
  induction rest generalizing object segment with
  | nil => exact .inl ⟨(object, segment), rfl, rfl⟩
  | cons next rest ih =>
    refine (looks_orRaise (fun m => (m.store.entries object).get? segment.name) _ _ m).bind
      fun v hv => ?_
    refine (looks_expectObject segment v m).bind fun inner hinner => ?_
    rcases ih inner next with ⟨found, hrun, hfound⟩ | hfail
    · refine .inl ⟨found, hrun, ?_⟩
      show _ = (m.store.entries found.1).get? found.2.name
      rw [← hfound]
      simp only [List.map_cons, List.foldl_cons, Option.bind_some]
      rw [show m.entry? segment.name (.object object) = some (.object inner) from hinner ▸ hv]
      rfl
    · exact .inr hfail

/-- The way to the owner changes nothing, and leads to the entry that the whole path leads to. -/
theorem looks_owner (m : Machine) (scope : ScopeId) (first second : Ident) (rest : List Ident) :
    Looks (owner scope first second rest) m fun found =>
      m.follow? scope first.name ((second :: rest).map (·.name)) =
        (m.store.entries found.1).get? found.2.name := by
  refine (looks_orRaise (fun m => m.store.lookup scope first.name) _ _ m).bind
    fun binding hbinding => ?_
  refine (looks_expectObject first binding.value m).bind fun root hroot => ?_
  rcases looks_ownerOf m root second rest with ⟨found, hrun, hfound⟩ | hfail
  · refine .inl ⟨found, hrun, ?_⟩
    show _ = (m.store.entries found.1).get? found.2.name
    rw [← hfound, Machine.follow?, hbinding, Option.map_some, hroot]
  · exact .inr hfail

end Construct

/-! ## Both forms -/

/-- The entry at the end of a dotted path is there, and evaluating `e` does not change it.  A
missing entry is left out, also where `e` gives a value and has no effect: then both forms fail with
one message, but one of them at the name that is assigned to and the other at the name that is
read. -/
def Target.Steady (bound : Nat) (scope : ScopeId) (e : Node) (m : Machine) : Target → Prop
  | .name _ => True
  | .path first second rest => ∀ found,
      (Construct.owner scope first second rest).run m = (.ok found, m) →
      ∃ old, (m.store.entries found.1).get? found.2.name = some old ∧
        ∀ v m', (Node.evalWithin bound scope e).run m = (.ok v, m') →
          (m'.store.entries found.1).get? found.2.name = some old

section

variable {bound : Nat} {scope : ScopeId} {m : Machine} {op : AssignOp} {operator : BinaryOp}
  {read sum e : Node}

/-- The operand on the right of a plain assignment reads the target, and then evaluates `e`. -/
theorem run_sum {old : Value} (hsum : sum.form = .binary read operator e)
    (hread : (Node.evalWithin bound scope read).run m = (.ok old, m)) :
    (Node.evalWithin (bound + 1) scope sum).run m =
      (Node.evalWithin bound scope e >>= fun v =>
        Eval.located e.span (Operator.binary operator old v)).run m := by
  simp only [Node.evalWithin, Node.evalForm, hsum, Construct.binary]
  rw [Step.run_bind_ok hread]

/-- What follows a step sees only how the step ran. -/
theorem run_bind_congr {α β : Type} {step step' : Eval α} (h : step.run m = step'.run m)
    (k : α → Eval β) : (step >>= k).run m = (step' >>= k).run m := by
  rw [Step.run_bind, Step.run_bind, h]

variable (hop : op.operator? = some operator) (hsum : sum.form = .binary read operator e)

include hop hsum

/-- A name is read before `e` is evaluated, in both forms. -/
theorem run_update_compound {ident : Ident} (hread : read.ReadsPath ident.name [])
    (hbound : 0 < bound) :
    (Construct.update (Node.evalWithin bound) scope ident op e).run m =
      (Construct.update (Node.evalWithin (bound + 1)) scope ident .set sum).run m := by
  unfold Construct.update
  rcases Construct.looks_orRaise (fun m => m.store.lookup scope ident.name) _ _ m with
    ⟨binding, hlookup, hbinding⟩ | ⟨signal, hlookup⟩
  · have hold : m.follow? scope ident.name [] = some binding.value := by
      rw [Machine.follow?, List.foldl_nil, hbinding]
      rfl
    have hrun := run_sum hsum (hread.run hold (by simp [Methodless]) hbound)
    rw [Eval.lookup, Step.run_bind_ok hlookup, Step.run_bind_ok hlookup, run_bind_congr hrun,
      bind_assoc]
    simp only [AssignOp.assign_eq_binary hop]
    rfl
  · rw [Eval.lookup, Step.run_bind_error hlookup, Step.run_bind_error hlookup]

/-- The last entry of a path is read after `e` is evaluated, so it has to be steady. -/
theorem run_memberAssign_compound {first second : Ident} {rest : List Ident}
    (hread : read.ReadsPath first.name ((second :: rest).map (·.name)))
    (hmethods : Methodless ((second :: rest).map (·.name)))
    (hbound : ((second :: rest).map (·.name)).length < bound)
    (hsteady : (Target.path first second rest).Steady bound scope e m) :
    (Construct.memberAssign (Node.evalWithin bound) scope (first :: second :: rest) op e).run m =
      (Construct.memberAssign (Node.evalWithin (bound + 1)) scope (first :: second :: rest) .set
        sum).run m := by
  rw [Construct.memberAssign_eq, Construct.memberAssign_eq]
  rcases Construct.looks_owner m scope first second rest with ⟨found, howner, hfound⟩ | ⟨_, howner⟩
  · obtain ⟨old, hold, hkept⟩ := hsteady found howner
    have hrun := run_sum hsum (hread.run (hfound.trans hold) hmethods hbound)
    rw [Step.run_bind_ok howner, Step.run_bind_ok howner, run_bind_congr hrun, bind_assoc]
    rcases he : (Node.evalWithin bound scope e).run m with ⟨signal | v, m'⟩
    · rw [Step.run_bind_error he, Step.run_bind_error he]
    · have hentry := Construct.run_entryOf (hkept v m' he)
      rw [Step.run_bind_ok he, Step.run_bind_ok he, ← AssignOp.assign_eq_binary hop]
      cases op with
      | set => cases hop
      | add | subtract =>
        show (Construct.entryOf found.1 found.2 >>= _).run m' = _
        rw [Step.run_bind_ok hentry]
        rfl
  · rw [Step.run_bind_error howner, Step.run_bind_error howner]

end

/-- **Compound assignment is the plain assignment of the operator,** to a name always and to a
dotted path where the entry at its end is there and `e` leaves it alone.  Both forms give the same
value, error or signal, and the same state; `e` is evaluated within the same bound in both. -/
theorem compound_eq_plain (target : Target) {op : AssignOp} {operator : BinaryOp}
    (hop : op.operator? = some operator) {compound plain sum read e : Node}
    (hcompound : compound.form = target.assign op e) (hplain : plain.form = target.assign .set sum)
    (hsum : sum.form = .binary read operator e)
    (hread : read.ReadsPath target.first target.further) (hmethods : Methodless target.further)
    {bound : Nat} (hbound : target.further.length < bound) {scope : ScopeId} {m : Machine}
    (hsteady : target.Steady bound scope e m) :
    (Node.evalWithin (bound + 1) scope compound).run m =
      (Node.evalWithin (bound + 2) scope plain).run m := by
  cases target with
  | name ident =>
    simp only [Node.evalWithin, Node.evalForm, hcompound, hplain, Target.assign]
    exact run_update_compound hop hsum hread hbound
  | path first second rest =>
    simp only [Node.evalWithin, Node.evalForm, hcompound, hplain, Target.assign]
    exact run_memberAssign_compound hop hsum hread hmethods hbound hsteady

namespace Compound

/-! ## An object with one entry -/

/-- A name of the programs below. -/
def ident (name : String) : Ident := ⟨name, ⟨⟨"main", ""⟩, .origin, .origin⟩⟩

/-- A node of the programs below. -/
def node (form : Form) : Node := .mk form (ident "").span

/-- `o.n` -/
def target : Target := .path (ident "o") (ident "n") []

/-- `o.n`, read. -/
def read : Node := node (.member (node (.access (ident "o"))) (ident "n"))

/-- `o.n + e` -/
def sum (e : Node) : Node := node (.binary read .add e)

/-- `let o = {n: "a"}` has been run. -/
def state : Machine where
  store := ⟨⟨#[]⟩, ⟨#[[("n", .text "a")]]⟩, ⟨#[⟨[("o", ⟨.object ⟨0⟩, false⟩)], none⟩]⟩⟩
  console := default
  workspace := default
  contexts := #[programContext]
  loopDepth := 0
  importing := []

theorem read_reads : read.ReadsPath target.first target.further := by
  have hroot : (node (.access (ident "o"))).ReadsPath (ident "o").name [] := .access rfl
  exact .member rfl hroot

theorem methodless : Methodless target.further := by
  intro name hname method
  rw [List.mem_singleton.1 hname]
  cases method <;> decide

/-- `o.n += "b"` -/
theorem eq_plain_text : target.Steady 3 ⟨0⟩ (node (.text "b")) state ∧
    (Node.evalWithin 4 ⟨0⟩ (node (target.assign .add (node (.text "b"))))).run state =
      (Node.evalWithin 5 ⟨0⟩ (node (target.assign .set (sum (node (.text "b")))))).run state := by
  have hsteady : target.Steady 3 ⟨0⟩ (node (.text "b")) state := by
    intro found hfound
    cases hfound
    refine ⟨.text "a", rfl, ?_⟩
    intro v m' he
    cases he
    rfl
  exact ⟨hsteady,
    compound_eq_plain target rfl rfl rfl rfl read_reads methodless (by decide) hsteady⟩

/-- **`o.n += (o.n = "b")` is not `o.n = o.n + (o.n = "b")`.**  The first form reads the entry after
it was overwritten, the second one before. -/
theorem path_differs :
    let e := node (target.assign .set (node (.text "b")))
    ((Node.evalWithin 4 ⟨0⟩ (node (target.assign .add e))).run state).1 = .ok (.text "bb") ∧
      ((Node.evalWithin 5 ⟨0⟩ (node (target.assign .set (sum e)))).run state).1 =
        .ok (.text "ab") := by
  exact ⟨rfl, rfl⟩

end Compound

end BpScript
