import BpScript.Proofs.Reach

/-!
# What operators and built-in functions change

Operators make lists and change none.  Built-in functions do change what their receivers hold, what
the console shows and which files there are, but they read everything first: their arguments, the
index, what the workspace says.  A fault comes before the first change, so a call that fails has
done nothing.

The proofs follow this order.  What only reads may stand before anything that is all or nothing, and
what cannot fail may stand behind it (`AllOrNothing.after_reading`, `AllOrNothing.before_success`).

* `Action.ReadsOnly`, `Action.Succeeds`, `Action.AllOrNothing` — actions by what they change.
* `Action.Builds`, `Action.Makes` — actions that make the list they give.
* `Operator.binary_makes`, `Operator.unary_readsOnly` — operators.
* `Native.call_allOrNothing` — built-in functions.
* **`faults_change_nothing`** — both, in terms of the state before and after.
-/

namespace BpScript

open Store

/-! ## Actions by what they change -/

namespace Action

variable {α β : Type} {action : Action α} {k : α → Action β}

/-- The action leaves the state as it is, whatever its outcome. -/
def ReadsOnly (action : Action α) : Prop :=
  ∀ m, (action.run m).2 = m

/-- The action raises no fault. -/
def Succeeds (action : Action α) : Prop :=
  ∀ m, ∃ a, (action.run m).1 = .ok a

/-- A fault of the action leaves the state as it is. -/
def AllOrNothing (action : Action α) : Prop :=
  ∀ m fault, (action.run m).1 = .error fault → (action.run m).2 = m

namespace ReadsOnly

theorem pure {a : α} : ReadsOnly (pure a) := fun _ => rfl

theorem throw {fault : Fault} : ReadsOnly (throw fault : Action α) := fun _ => rfl

theorem get : ReadsOnly (get : Action Machine) := fun _ => rfl

theorem run_eq (h : ReadsOnly action) (m : Machine) : action.run m = ((action.run m).1, m) :=
  Prod.ext rfl (h m)

theorem bind (h : ReadsOnly action) (hk : ∀ a, ReadsOnly (k a)) : ReadsOnly (action >>= k) := by
  intro m
  rw [Step.run_bind, h.run_eq m]
  cases (action.run m).1 with
  | error fault => rfl
  | ok a => exact hk a m

theorem allOrNothing (h : ReadsOnly action) : AllOrNothing action :=
  fun m _ _ => h m

end ReadsOnly

namespace Succeeds

theorem pure {a : α} : Succeeds (pure a) := fun _ => ⟨a, rfl⟩

theorem modify {f : Machine → Machine} : Succeeds (modify f : Action Unit) := fun _ => ⟨(), rfl⟩

theorem modifyGet {f : Machine → α × Machine} : Succeeds (modifyGet f : Action α) :=
  fun m => ⟨(f m).1, rfl⟩

theorem bind (h : Succeeds action) (hk : ∀ a, Succeeds (k a)) : Succeeds (action >>= k) := by
  intro m
  obtain ⟨a, ha⟩ := h m
  rw [Step.run_bind_ok (Prod.ext ha rfl)]
  exact hk a _

theorem allOrNothing (h : Succeeds action) : AllOrNothing action := by
  intro m fault hfault
  obtain ⟨a, ha⟩ := h m
  rw [ha] at hfault
  cases hfault

end Succeeds

namespace AllOrNothing

theorem throw {fault : Fault} : AllOrNothing (throw fault : Action α) :=
  ReadsOnly.throw.allOrNothing

/-- Reading comes first. -/
theorem after_reading (h : ReadsOnly action) (hk : ∀ a, AllOrNothing (k a)) :
    AllOrNothing (action >>= k) := by
  intro m fault
  rw [Step.run_bind, h.run_eq m]
  cases (action.run m).1 with
  | error e => exact fun _ => rfl
  | ok a => exact hk a m fault

/-- What cannot fail comes last. -/
theorem before_success (h : AllOrNothing action) (hk : ∀ a, Succeeds (k a)) :
    AllOrNothing (action >>= k) := by
  intro m fault hfault
  rcases hrun : action.run m with ⟨e | a, m'⟩
  · have hstate := h m e (congrArg Prod.fst hrun)
    rw [hrun] at hstate
    rw [Step.run_bind_error hrun]
    exact hstate
  · obtain ⟨b, hb⟩ := hk a m'
    rw [Step.run_bind_ok hrun, hb] at hfault
    cases hfault

end AllOrNothing

/-! ### Elementary steps -/

theorem items_readsOnly {l : ListId} : ReadsOnly (items l) := fun _ => rfl

theorem entries_readsOnly {o : ObjectId} : ReadsOnly (entries o) := fun _ => rfl

theorem store_readsOnly : ReadsOnly store := fun _ => rfl

theorem render_readsOnly {v : Value} : ReadsOnly (render v) := fun _ => rfl

theorem equal_readsOnly {v w : Value} : ReadsOnly (equal v w) := fun _ => rfl

theorem newList_succeeds {items : Array Value} : Succeeds (newList items) := .modifyGet

theorem modifyItems_succeeds {l : ListId} {f : Array Value → Array Value} :
    Succeeds (modifyItems l f) := .modify

theorem modifyEntries_succeeds {o : ObjectId} {f : Table String Value → Table String Value} :
    Succeeds (modifyEntries o f) := .modify

/-! ### New lists -/

variable {build : Action Value} {l : α → Action Value} {m : Machine} {v : Value}

/-- The action does what making a list does: it gives the list that it makes. -/
def MakesFrom (build : Action Value) (m : Machine) : Prop :=
  ∃ items, build.run m = (newList items).run m

/-- The action leaves the state as it is, or gives a list that it makes. -/
def Makes (build : Action Value) : Prop :=
  ∀ m, (build.run m).2 = m ∨ build.MakesFrom m

/-- All lists that the action gives are lists that it makes, and otherwise it leaves the state as it
is. -/
def Builds (build : Action Value) : Prop :=
  ∀ m, ((build.run m).2 = m ∧ ∀ l, (build.run m).1 ≠ .ok (.list l)) ∨ build.MakesFrom m

theorem ReadsOnly.makes (h : ReadsOnly build) : Makes build := fun m => .inl (h m)

namespace Builds

theorem makes (h : Builds build) : Makes build := fun m => (h m).imp_left And.left

theorem pure (h : ∀ l, v ≠ .list l) : Builds (pure v) :=
  fun _ => .inl ⟨rfl, fun l hl => h l (Except.ok.inj hl)⟩

theorem throw {fault : Fault} : Builds (throw fault) := fun _ => .inl ⟨rfl, nofun⟩

theorem newList {items : Array Value} : Builds (newList items) := fun _ => .inr ⟨items, rfl⟩

theorem after_reading (h : ReadsOnly action) (hl : ∀ a, Builds (l a)) : Builds (action >>= l) := by
  intro m
  unfold MakesFrom
  rw [Step.run_bind, h.run_eq m]
  cases (action.run m).1 with
  | error fault => exact .inl ⟨rfl, nofun⟩
  | ok a => exact hl a m

end Builds

namespace MakesFrom

/-- Everything that was there is still there. -/
theorem sameCell (h : build.MakesFrom m) (cell : Handle) (hcell : m.store.Holds cell) :
    SameCell m.store (build.run m).2.store cell := by
  obtain ⟨items, hrun⟩ := h
  rw [hrun]
  exact (allocates_newList items).same cell hcell

/-- Making a list changes the store and nothing else. -/
theorem withStore (h : build.MakesFrom m) : { (build.run m).2 with store := m.store } = m := by
  obtain ⟨items, hrun⟩ := h
  rw [hrun]
  rfl

theorem ne_error (h : build.MakesFrom m) (fault : Fault) : (build.run m).1 ≠ .error fault := by
  obtain ⟨items, hrun⟩ := h
  rw [hrun]
  exact nofun

/-- The list that is given was not there, and is now. -/
theorem fresh (h : build.MakesFrom m) {id : ListId} (hid : (build.run m).1 = .ok (.list id)) :
    ¬m.store.Holds (.list id) ∧ (build.run m).2.store.Holds (.list id) := by
  obtain ⟨items, hrun⟩ := h
  rw [hrun] at hid ⊢
  cases hid
  have hmade := allocates_newList (s := m.store) items
  exact ⟨hmade.absent, (hmade.holds_iff _).2 (.inr rfl)⟩

end MakesFrom

end Action

open BpScript.Action

/-! ## Operators -/

namespace Operator

variable {lhs rhs : Value}

theorem add_builds : Builds (add lhs rhs) := by
  unfold add
  split
  case h_4 | h_5 | h_6 | h_7 => exact .after_reading render_readsOnly fun _ => .pure nofun
  case h_8 => exact .after_reading items_readsOnly fun _ => .newList
  case h_9 => exact .throw
  all_goals exact .pure nofun

theorem subtract_builds : Builds (subtract lhs rhs) := by
  unfold subtract
  split
  case h_4 =>
    refine .after_reading items_readsOnly fun _ => ?_
    split
    · exact .newList
    · exact .throw
  case h_5 => exact .throw
  all_goals exact .pure nofun

theorem multiply_builds : Builds (multiply lhs rhs) := by
  unfold multiply
  split
  case h_4 =>
    split
    · exact .pure nofun
    · exact .throw
  case h_5 =>
    exact .after_reading items_readsOnly fun _ => .after_reading items_readsOnly fun _ => .newList
  case h_6 => exact .throw
  all_goals exact .pure nofun

theorem divide_readsOnly : ReadsOnly (divide lhs rhs) := by
  unfold divide
  split
  case h_5 =>
    refine .bind items_readsOnly fun _ => ?_
    split
    · exact .pure
    · exact .throw
  case h_1 | h_2 =>
    split
    · exact .throw
    · exact .pure
  all_goals exact .throw

theorem power_readsOnly : ReadsOnly (power lhs rhs) := by
  unfold power
  split
  case h_4 => exact .throw
  all_goals exact .pure

theorem compare_readsOnly {holds : Float → Float → Bool} :
    ReadsOnly (compare holds lhs rhs) := by
  unfold compare
  split
  · exact .pure
  · exact .throw
  · exact .throw

/-- A binary operator changes nothing, or makes the list that it gives. -/
theorem binary_makes (op : BinaryOp) (lhs rhs : Value) : Makes (binary op lhs rhs) := by
  cases op with
  | add => exact add_builds.makes
  | subtract => exact subtract_builds.makes
  | multiply => exact multiply_builds.makes
  | divide => exact divide_readsOnly.makes
  | power => exact power_readsOnly.makes
  | equal => exact (ReadsOnly.bind equal_readsOnly fun _ => .pure).makes
  | notEqual => exact (ReadsOnly.bind equal_readsOnly fun _ => .pure).makes
  | less => exact compare_readsOnly.makes
  | greater => exact compare_readsOnly.makes
  | lessEqual => exact compare_readsOnly.makes
  | greaterEqual => exact compare_readsOnly.makes
  | and => exact ReadsOnly.pure.makes
  | or => exact ReadsOnly.pure.makes

/-- All lists that sums, differences and products give are new. -/
theorem binary_builds {op : BinaryOp} (h : op = .add ∨ op = .subtract ∨ op = .multiply)
    (lhs rhs : Value) : Builds (binary op lhs rhs) := by
  rcases h with rfl | rfl | rfl
  · exact add_builds
  · exact subtract_builds
  · exact multiply_builds

/-- A unary operator changes nothing. -/
theorem unary_readsOnly (op : UnaryOp) (v : Value) : ReadsOnly (unary op v) := by
  unfold unary
  split
  case h_6 => exact .throw
  all_goals exact .pure

end Operator

/-! ## Built-in functions -/

theorem expectText_readsOnly {role : String} {v : Value} : ReadsOnly (expectText role v) := by
  cases v with
  | text s => exact .pure
  | _ => exact .throw

theorem orIo_readsOnly {α : Type} {result : Except FileError α} : ReadsOnly (orIo result) := by
  cases result with
  | ok a => exact .pure
  | error e => exact .throw

namespace Global

/-- There is always a line to read, be it an empty one. -/
theorem readLine_succeeds {v : Value} : Succeeds (readLine v) := by
  refine Succeeds.bind ?_ fun _ => .modifyGet
  cases v with
  | null => exact .pure
  | _ => exact fun m => ⟨_, rfl⟩

theorem numberOf_readsOnly {v : Value} : ReadsOnly (numberOf v) := by
  unfold numberOf
  split
  · exact .pure
  · exact .pure
  · split
    · exact .pure
    · exact .throw
  · exact .throw

theorem booleanOf_readsOnly {v : Value} : ReadsOnly (booleanOf v) := by
  unfold booleanOf
  split
  · exact .pure
  · exact .pure
  · exact .pure
  · exact .throw

theorem lengthOf_readsOnly {v : Value} : ReadsOnly (lengthOf v) := by
  unfold lengthOf
  split
  · exact .pure
  · exact .bind items_readsOnly fun _ => .pure
  · exact .bind entries_readsOnly fun _ => .pure
  · exact .throw

theorem pathOf_readsOnly {v : Value} : ReadsOnly (pathOf v) :=
  .bind expectText_readsOnly fun _ => .bind .get fun _ => .pure

theorem setWorkspace_allOrNothing {result : Except FileError Workspace} :
    AllOrNothing (setWorkspace result) :=
  .before_success orIo_readsOnly.allOrNothing fun _ => .bind .modify fun _ => .pure

theorem call_allOrNothing (f : Global) (args : List Value) : AllOrNothing (f.call args) := by
  cases f with
  | print =>
    exact .after_reading render_readsOnly fun _ =>
      (Succeeds.bind .modify fun _ => .pure).allOrNothing
  | input => exact (Succeeds.bind readLine_succeeds fun _ => .pure).allOrNothing
  | inputInt =>
    refine (Succeeds.bind readLine_succeeds fun _ => ?_).allOrNothing
    split
    · exact .pure
    · exact .pure
  | clear => exact (Succeeds.bind .modify fun _ => .pure).allOrNothing
  | toText => exact (ReadsOnly.bind render_readsOnly fun _ => .pure).allOrNothing
  | toNumber => exact numberOf_readsOnly.allOrNothing
  | toBoolean => exact booleanOf_readsOnly.allOrNothing
  | len => exact lengthOf_readsOnly.allOrNothing
  | readFile =>
    exact (ReadsOnly.bind pathOf_readsOnly fun _ => .bind .get fun _ =>
      .bind orIo_readsOnly fun _ => .pure).allOrNothing
  | writeFile =>
    exact .after_reading pathOf_readsOnly fun _ => .after_reading render_readsOnly fun _ =>
      .after_reading .get fun _ => setWorkspace_allOrNothing
  | deleteFile =>
    exact .after_reading pathOf_readsOnly fun _ => .after_reading .get fun _ =>
      setWorkspace_allOrNothing
  | _ => exact ReadsOnly.pure.allOrNothing

end Global

theorem TextMethod.call_allOrNothing (method : TextMethod) (s : String) (args : List Value) :
    AllOrNothing (method.call s args) := by
  cases method with
  | split =>
    simp only [call]
    split
    · exact newList_succeeds.allOrNothing
    · split
      · exact newList_succeeds.allOrNothing
      · exact newList_succeeds.allOrNothing
    · exact .throw
  | contains => exact (ReadsOnly.bind expectText_readsOnly fun _ => .pure).allOrNothing
  | replace =>
    exact (ReadsOnly.bind expectText_readsOnly fun _ =>
      .bind expectText_readsOnly fun _ => .pure).allOrNothing
  | _ => exact ReadsOnly.pure.allOrNothing

namespace ListMethod

variable {l : ListId}

theorem separatorText_readsOnly {v : Value} : ReadsOnly (separatorText v) := by
  cases v with
  | null => exact .pure
  | _ => exact expectText_readsOnly

/-- The index is looked up before anything is removed. -/
theorem removeAt_allOrNothing {index : Float} : AllOrNothing (removeAt l index) := by
  refine .after_reading items_readsOnly fun _ => ?_
  split
  · exact (Succeeds.bind modifyItems_succeeds fun _ => .pure).allOrNothing
  · exact .throw

theorem call_allOrNothing (method : ListMethod) (l : ListId) (args : List Value) :
    AllOrNothing (method.call l args) := by
  cases method with
  | len => exact (ReadsOnly.bind items_readsOnly fun _ => .pure).allOrNothing
  | append => exact (Succeeds.bind modifyItems_succeeds fun _ => .pure).allOrNothing
  | pop =>
    simp only [call]
    split
    · exact removeAt_allOrNothing
    · exact removeAt_allOrNothing
    · exact .throw
  | extend =>
    simp only [call]
    split
    · exact .after_reading items_readsOnly fun _ =>
        (Succeeds.bind modifyItems_succeeds fun _ => .pure).allOrNothing
    · exact .throw
  | contains => exact (ReadsOnly.bind store_readsOnly fun _ => .pure).allOrNothing
  | join =>
    exact (ReadsOnly.bind separatorText_readsOnly fun _ =>
      .bind store_readsOnly fun _ => .pure).allOrNothing
  | get =>
    simp only [call]
    split
    · refine .after_reading items_readsOnly fun _ => ?_
      split
      · exact ReadsOnly.pure.allOrNothing
      · exact .throw
    · exact .throw

end ListMethod

theorem ObjectMethod.call_allOrNothing (method : ObjectMethod) (o : ObjectId) (args : List Value) :
    AllOrNothing (method.call o args) := by
  cases method with
  | keys => exact .after_reading entries_readsOnly fun _ => newList_succeeds.allOrNothing
  | values => exact .after_reading entries_readsOnly fun _ => newList_succeeds.allOrNothing
  | has =>
    exact (ReadsOnly.bind expectText_readsOnly fun _ =>
      .bind entries_readsOnly fun _ => .pure).allOrNothing
  | remove =>
    exact .after_reading expectText_readsOnly fun _ => .after_reading entries_readsOnly fun _ =>
      (Succeeds.bind modifyEntries_succeeds fun _ => .pure).allOrNothing

/-- **Built-in functions are all or nothing**, whatever their receiver and their arguments are. -/
theorem Native.call_allOrNothing (f : Native) (args : List Value) : AllOrNothing (f.call args) := by
  cases f with
  | global g => exact g.call_allOrNothing args
  | text method s => exact method.call_allOrNothing s args
  | list method l => exact method.call_allOrNothing l args
  | object method o => exact method.call_allOrNothing o args
  | function method g => cases method <;> exact ReadsOnly.pure.allOrNothing

/-- **Operators leave lists and objects alone, and faults change nothing.**  Applying an operator
leaves every list, object and scope as it was, and all of the state but the store; where the
operator fails, and always where it has one operand, the state stays as it is.  A list that `+`, `-`
or `*` gives is a new one.  A built-in function that fails leaves all of the state as it was: the
store, the console and the workspace. -/
theorem faults_change_nothing :
    (∀ (op : BinaryOp) (lhs rhs : Value) (m : Machine),
      let r := (Operator.binary op lhs rhs).run m
      (∀ cell, m.store.Holds cell → SameCell m.store r.2.store cell) ∧
      { r.2 with store := m.store } = m ∧
      (∀ fault, r.1 = .error fault → r.2 = m) ∧
      (op = .add ∨ op = .subtract ∨ op = .multiply → ∀ l, r.1 = .ok (.list l) →
        ¬m.store.Holds (.list l) ∧ r.2.store.Holds (.list l))) ∧
    (∀ (op : UnaryOp) (operand : Value) (m : Machine),
      ((Operator.unary op operand).run m).2 = m) ∧
    (∀ (f : Native) (args : List Value) (m : Machine) (fault : Fault),
      ((f.call args).run m).1 = .error fault → ((f.call args).run m).2 = m) := by
  refine ⟨fun op lhs rhs m => ?_, fun op operand => Operator.unary_readsOnly op operand,
    fun f args => f.call_allOrNothing args⟩
  intro r
  refine ⟨?_, ?_, fun fault hfault => ?_, fun hop l hl => ?_⟩
  · rcases Operator.binary_makes op lhs rhs m with hsame | hmakes
    · intro cell _
      rw [show r.2 = m from hsame]
      exact .refl _ cell
    · exact hmakes.sameCell
  · rcases Operator.binary_makes op lhs rhs m with hsame | hmakes
    · rw [show r.2 = m from hsame]
    · exact hmakes.withStore
  · rcases Operator.binary_makes op lhs rhs m with hsame | hmakes
    · exact hsame
    · exact absurd hfault (hmakes.ne_error fault)
  · rcases Operator.binary_builds hop lhs rhs m with ⟨-, hno⟩ | hmakes
    · exact absurd hl (hno l)
    · exact hmakes.fresh hl

/-- In a state with one list: a sum is a new list, and `extend` by a text fails and leaves the state
as it is. -/
theorem extend_by_text_changes_nothing :
    let m : Machine :=
      { Machine.start default .memory with store := (Store.empty.newList #[.boolean true]).2 }
    let sum := (Operator.binary .add (.list ⟨0⟩) .null).run m
    let extended := ((Native.list .extend ⟨0⟩).call [.text "ab"]).run m
    (m.store.Holds (.list ⟨0⟩) ∧ SameCell m.store sum.2.store (.list ⟨0⟩)) ∧
      (sum.1 = .ok (.list ⟨1⟩) ∧ ¬m.store.Holds (.list ⟨1⟩) ∧ sum.2.store.Holds (.list ⟨1⟩)) ∧
      extended.1 = .error (.type .firstArgumentList) ∧ extended.2 = m := by
  intro m sum extended
  obtain ⟨hbinary, -, hnative⟩ := faults_change_nothing
  obtain ⟨hsame, -, -, hfresh⟩ := hbinary .add (.list ⟨0⟩) .null m
  have hheld : m.store.Holds (.list ⟨0⟩) := Nat.zero_lt_one
  have hfails : extended.1 = .error (.type .firstArgumentList) := rfl
  exact ⟨⟨hheld, hsame _ hheld⟩, ⟨rfl, hfresh (.inl rfl) ⟨1⟩ rfl⟩, hfails, hnative _ _ m _ hfails⟩

end BpScript
