import BpScript.Proofs.Discipline

/-!
# Operators and built-in functions keep every discipline

Operators and built-in functions are actions on values that are already there.  What they give back
is plain, or was in a list or object that an operand refers to, or is a new list of such values;
what they change is the contents of a receiver, or nothing that a store holds.  Each family of them
is gone through once, here, for all disciplines.

* `Operator.binary_performs`, `Operator.unary_performs`, `Operator.assign_performs`
* `Native.call_performs` — all built-in functions, on arguments that the run may carry.
* `Value.member_performs` — looking up a member.
-/

namespace BpScript

namespace Discipline

variable {W : Type} {D : Discipline W} {w : W} {E : ScopeId} {m : Machine}

/-! ## Actions -/

namespace Performs

variable {α β : Type} {T : Store → α → Prop} {V : Store → β → Prop} {action : Action α}
  {k : α → Action β}

theorem throw {fault : Fault} : D.Performs w E T m (throw fault) := Keeps.throw trivial

/-- A value that refers to nothing may be carried by every run. -/
theorem plain {v : Value} (h : v.ref? = none) : D.Performs w E (D.Carries w) m (pure v) :=
  Keeps.pure (Value.within_of_ref?_eq_none h)

/-- Going on from something that was only read. -/
theorem bind_read {a : α} (hrun : action.run m = (.ok a, m))
    (h : D.Sound w m.store → D.Performs w E V m (k a)) : D.Performs w E V m (action >>= k) := by
  intro hs
  rw [Step.run_bind_ok hrun]
  exact h hs hs

/-- Console and workspace are no concern of a discipline. -/
theorem of_host {a : α} {m' : Machine} (hrun : action.run m = (.ok a, m'))
    (hstore : m'.store = m.store) (hplace : m.SamePlace m') (h : T m.store a) :
    D.Performs w E T m action := by
  intro hs
  rw [hrun]
  refine ⟨⟨?_, ?_, hplace⟩, ?_⟩
  · show D.Sound w m'.store
    rwa [hstore]
  · show D.Grows w E m.store m'.store
    rw [hstore]
    exact D.grows_refl w E _
  · show T m'.store a
    rwa [hstore]

theorem newList {items : Array Value} (h : ∀ v ∈ items, D.Carries w m.store v) :
    D.Performs w E (D.Carries w) m (Action.newList items) := by
  refine Keeps.of_store (Step.run_modifyGet _ m) fun hs => ?_
  obtain ⟨hsound, hgrows, hrefers⟩ := D.newList E hs h
  exact ⟨hsound, hgrows, Value.within_list.2 hrefers⟩

theorem modifyItems {l : ListId} {f : Array Value → Array Value}
    (hl : D.Refers w m.store (.list l)) (h : ∀ v ∈ f (m.store.items l), D.Carries w m.store v) :
    D.Performs w E (fun _ _ => True) m (Action.modifyItems l f) := by
  refine Keeps.of_store (Step.run_modify _ m) fun hs => ?_
  obtain ⟨hsound, hgrows⟩ := D.modifyItems E hs hl h
  exact ⟨hsound, hgrows, trivial⟩

theorem modifyEntries {o : ObjectId} {f : Table String Value → Table String Value}
    (ho : D.Refers w m.store (.object o))
    (hkeys : (m.store.entries o).keys.Nodup → (f (m.store.entries o)).keys.Nodup)
    (h : ∀ entry ∈ f (m.store.entries o), D.Carries w m.store entry.2) :
    D.Performs w E (fun _ _ => True) m (Action.modifyEntries o f) := by
  refine Keeps.of_store (Step.run_modify _ m) fun hs => ?_
  obtain ⟨hsound, hgrows⟩ := D.modifyEntries E hs ho hkeys h
  exact ⟨hsound, hgrows, trivial⟩

end Performs

end Discipline

/-! ## Operators -/

section Operators

variable {W : Type} {D : Discipline W} {w : W} {E : ScopeId} {m : Machine} {lhs rhs : Value}

open Discipline

namespace Operator

theorem illegal_performs {α : Type} {T : Store → α → Prop} {v : Value} :
    D.Performs w E T m (illegal v) :=
  Performs.throw

theorem mem_of_mem_eraseIdxIfInBounds {α : Type} {xs : Array α} {i : Nat} {a : α}
    (h : a ∈ xs.eraseIdxIfInBounds i) : a ∈ xs := by
  rw [Array.eraseIdxIfInBounds_eq] at h
  split at h
  · exact Array.mem_of_mem_eraseIdx h
  · exact h

/-- A sum of a list is a new list of its elements and the right operand. -/
theorem add_performs (hl : D.Carries w m.store lhs) (hr : D.Carries w m.store rhs) :
    D.Performs w E (D.Carries w) m (add lhs rhs) := by
  unfold add
  split
  case h_4 | h_5 | h_6 | h_7 => exact Performs.bind_read rfl fun _ => Performs.plain rfl
  case h_8 l _ =>
    refine Performs.bind_read rfl fun hs => Performs.newList fun v hv => ?_
    rcases Array.mem_push.1 hv with hv | rfl
    · exact D.items_within hs (Value.within_list.1 hl) hv
    · exact hr
  case h_9 => exact illegal_performs
  all_goals exact Performs.plain rfl

theorem subtract_performs (hl : D.Carries w m.store lhs) :
    D.Performs w E (D.Carries w) m (subtract lhs rhs) := by
  unfold subtract
  split
  case h_4 l n =>
    refine Performs.bind_read rfl fun hs => ?_
    split
    · refine Performs.newList fun v hv => ?_
      exact D.items_within hs (Value.within_list.1 hl) (mem_of_mem_eraseIdxIfInBounds hv)
    · exact Performs.throw
  case h_5 => exact illegal_performs
  all_goals exact Performs.plain rfl

theorem multiply_performs (hl : D.Carries w m.store lhs) (hr : D.Carries w m.store rhs) :
    D.Performs w E (D.Carries w) m (multiply lhs rhs) := by
  unfold multiply
  split
  case h_4 s n =>
    split
    · exact Performs.plain rfl
    · exact illegal_performs
  case h_5 l r =>
    refine Performs.bind_read rfl fun hs => Performs.bind_read rfl fun _ =>
      Performs.newList fun v hv => ?_
    rcases Array.mem_append.1 hv with hv | hv
    · exact D.items_within hs (Value.within_list.1 hl) hv
    · exact D.items_within hs (Value.within_list.1 hr) hv
  case h_6 => exact illegal_performs
  all_goals exact Performs.plain rfl

/-- An element taken from a list by index was in it. -/
theorem mem_of_listIndex?_bind {items : Array Value} {n : Float} {v : Value}
    (h : (listIndex? n items.size).bind (items[·]?) = some v) : v ∈ items := by
  obtain ⟨i, -, hi⟩ := Option.bind_eq_some_iff.1 h
  exact Array.mem_of_getElem? hi

theorem divide_performs (hl : D.Carries w m.store lhs) :
    D.Performs w E (D.Carries w) m (divide lhs rhs) := by
  unfold divide
  split
  case h_5 l n =>
    refine Performs.bind_read rfl fun hs => ?_
    split
    · next v hv =>
      exact Keeps.pure (D.items_within hs (Value.within_list.1 hl) (mem_of_listIndex?_bind hv))
    · exact Performs.throw
  case h_6 => exact illegal_performs
  all_goals first
    | exact Performs.throw
    | split
      · exact Performs.throw
      · exact Performs.plain rfl

theorem power_performs : D.Performs w E (D.Carries w) m (power lhs rhs) := by
  unfold power
  split
  case h_4 => exact illegal_performs
  all_goals exact Performs.plain rfl

theorem compare_performs {holds : Float → Float → Bool} :
    D.Performs w E (D.Carries w) m (compare holds lhs rhs) := by
  unfold compare
  split
  · exact Performs.plain rfl
  · exact illegal_performs
  · exact illegal_performs

/-- Binary operators keep every discipline. -/
theorem binary_performs (op : BinaryOp) (hl : D.Carries w m.store lhs)
    (hr : D.Carries w m.store rhs) : D.Performs w E (D.Carries w) m (binary op lhs rhs) := by
  cases op with
  | add => exact add_performs hl hr
  | subtract => exact subtract_performs hl
  | multiply => exact multiply_performs hl hr
  | divide => exact divide_performs hl
  | power => exact power_performs
  | equal => exact Performs.bind_read rfl fun _ => Performs.plain rfl
  | notEqual => exact Performs.bind_read rfl fun _ => Performs.plain rfl
  | less => exact compare_performs
  | greater => exact compare_performs
  | lessEqual => exact compare_performs
  | greaterEqual => exact compare_performs
  | and => exact Performs.plain rfl
  | or => exact Performs.plain rfl

/-- Unary operators keep every discipline. -/
theorem unary_performs (op : UnaryOp) (v : Value) :
    D.Performs w E (D.Carries w) m (unary op v) := by
  unfold unary
  split
  case h_6 => exact illegal_performs
  all_goals exact Performs.plain rfl

/-- What an assignment stores may be carried by the run. -/
theorem assign_performs (op : AssignOp) (hl : D.Carries w m.store lhs)
    (hr : D.Carries w m.store rhs) : D.Performs w E (D.Carries w) m (assign op lhs rhs) := by
  cases op with
  | set => exact Keeps.pure hr
  | add => exact add_performs hl hr
  | subtract => exact subtract_performs hl

end Operator

end Operators

/-! ## Built-in functions -/

section Natives

variable {W : Type} {D : Discipline W} {w : W} {E : ScopeId} {m : Machine} {args : List Value}

open Discipline

/-- An argument was passed, or is null. -/
theorem argument_carries (h : ∀ v ∈ args, D.Carries w m.store v) (i : Nat) :
    D.Carries w m.store (argument args i) := by
  unfold argument
  cases hi : args[i]? with
  | none => exact Value.within_null
  | some v => exact h v (List.mem_of_getElem? hi)

theorem expectText_performs {role : String} {v : Value} :
    D.Performs w E (fun _ _ => True) m (expectText role v) := by
  cases v with
  | text s => exact Keeps.pure trivial
  | _ => exact Performs.throw

theorem orIo_performs {α : Type} {result : Except FileError α} :
    D.Performs w E (fun _ _ => True) m (orIo result) := by
  cases result with
  | ok a => exact Keeps.pure trivial
  | error e => exact Performs.throw

namespace Global

theorem readLine_performs {prompt : Value} :
    D.Performs w E (fun _ _ => True) m (readLine prompt) := by
  have hread : ∀ text, D.Performs w E (fun _ _ => True) m
      (modifyGet fun m => ((m.console.input text).1,
        { m with console := (m.console.input text).2 })) :=
    fun text => Performs.of_host (Step.run_modifyGet _ m) rfl ⟨rfl, rfl, rfl⟩ trivial
  unfold readLine
  cases prompt with
  | null => exact hread ""
  | _ => exact Performs.bind_read rfl fun _ => hread _

theorem pathOf_performs {v : Value} : D.Performs w E (fun _ _ => True) m (pathOf v) :=
  Keeps.bind expectText_performs fun _ _ _ _ => Keeps.bind_get fun _ => Keeps.pure trivial

theorem setWorkspace_performs {result : Except FileError Workspace} :
    D.Performs w E (D.Carries w) m (setWorkspace result) := by
  refine Keeps.bind orIo_performs fun workspace m' _ _ => ?_
  exact Performs.of_host rfl rfl ⟨rfl, rfl, rfl⟩ Value.within_null

/-- The functions of root scopes give plain values.  Console and workspace apart, they change
nothing. -/
theorem call_performs (f : Global) (args : List Value) :
    D.Performs w E (D.Carries w) m (f.call args) := by
  cases f with
  | print =>
    refine Performs.bind_read rfl fun _ => ?_
    exact Performs.of_host rfl rfl ⟨rfl, rfl, rfl⟩ Value.within_null
  | input => exact Keeps.bind readLine_performs fun _ _ _ _ => Performs.plain rfl
  | inputInt =>
    refine Keeps.bind readLine_performs fun line m' _ _ => ?_
    split
    · exact Performs.plain rfl
    · exact Performs.plain rfl
  | clear => exact Performs.of_host rfl rfl ⟨rfl, rfl, rfl⟩ Value.within_null
  | toText => exact Performs.bind_read rfl fun _ => Performs.plain rfl
  | toNumber =>
    show D.Performs w E (D.Carries w) m (numberOf (argument args 0))
    unfold numberOf
    split
    · exact Performs.plain rfl
    · exact Performs.plain rfl
    · split
      · exact Performs.plain rfl
      · exact Performs.throw
    · exact Performs.throw
  | toBoolean =>
    show D.Performs w E (D.Carries w) m (booleanOf (argument args 0))
    unfold booleanOf
    split
    · exact Performs.plain rfl
    · exact Performs.plain rfl
    · exact Performs.plain rfl
    · exact Performs.throw
  | len =>
    show D.Performs w E (D.Carries w) m (lengthOf (argument args 0))
    unfold lengthOf
    split
    · exact Performs.plain rfl
    · exact Performs.bind_read rfl fun _ => Performs.plain rfl
    · exact Performs.bind_read rfl fun _ => Performs.plain rfl
    · exact Performs.throw
  | readFile =>
    refine Keeps.bind pathOf_performs fun path m' _ _ => Keeps.bind_get fun _ => ?_
    exact Keeps.bind orIo_performs fun _ _ _ _ => Performs.plain rfl
  | writeFile =>
    refine Keeps.bind pathOf_performs fun path m' _ _ => Performs.bind_read rfl fun _ => ?_
    exact Keeps.bind_get fun _ => setWorkspace_performs
  | deleteFile =>
    refine Keeps.bind pathOf_performs fun path m' _ _ => ?_
    exact Keeps.bind_get fun _ => setWorkspace_performs
  | _ => exact Performs.plain rfl

end Global

namespace TextMethod

theorem listOf_performs {parts : List String} :
    D.Performs w E (D.Carries w) m (listOf parts) := by
  refine Performs.newList fun v hv => ?_
  obtain ⟨text, -, rfl⟩ := List.mem_map.1 (List.mem_toArray.1 hv)
  exact Value.within_of_ref?_eq_none rfl

/-- The methods of texts give plain values, or new lists of texts. -/
theorem call_performs (method : TextMethod) (s : String) (args : List Value) :
    D.Performs w E (D.Carries w) m (method.call s args) := by
  cases method with
  | split =>
    simp only [call]
    split
    · exact listOf_performs
    · split
      · exact listOf_performs
      · exact listOf_performs
    · exact Performs.throw
  | contains => exact Keeps.bind expectText_performs fun _ _ _ _ => Performs.plain rfl
  | replace =>
    refine Keeps.bind expectText_performs fun _ _ _ _ => ?_
    exact Keeps.bind expectText_performs fun _ _ _ _ => Performs.plain rfl
  | _ => exact Performs.plain rfl

end TextMethod

namespace ListMethod

variable {l : ListId}

theorem separatorText_performs {v : Value} :
    D.Performs w E (fun _ _ => True) m (separatorText v) := by
  cases v with
  | null => exact Keeps.pure trivial
  | _ => exact expectText_performs

theorem removeAt_performs {index : Float} (hl : D.Refers w m.store (.list l)) :
    D.Performs w E (D.Carries w) m (removeAt l index) := by
  refine Performs.bind_read rfl fun hs => ?_
  split
  · next i hi =>
    have hremoved : D.Carries w m.store ((m.store.items l)[i]?.getD .null) := by
      cases hget : (m.store.items l)[i]? with
      | none => exact Value.within_null
      | some v => exact D.items_within hs hl (Array.mem_of_getElem? hget)
    have hrest : ∀ v ∈ (m.store.items l).eraseIdxIfInBounds i, D.Carries w m.store v :=
      fun v hv => D.items_within hs hl (Operator.mem_of_mem_eraseIdxIfInBounds hv)
    refine Keeps.bind (Performs.modifyItems hl hrest) fun _ m' hlater _ => ?_
    exact Keeps.pure (hlater.carries hremoved)
  · exact Performs.throw

/-- The methods of a list change that list only, and put nothing into it but arguments and the
elements of a list that is an argument. -/
theorem call_performs (method : ListMethod) (hl : D.Refers w m.store (.list l))
    (hargs : ∀ v ∈ args, D.Carries w m.store v) :
    D.Performs w E (D.Carries w) m (method.call l args) := by
  have hfirst := argument_carries hargs 0
  cases method with
  | len => exact Performs.bind_read rfl fun _ => Performs.plain rfl
  | append =>
    intro hs
    have hpushed : ∀ v ∈ (m.store.items l).push (argument args 0), D.Carries w m.store v := by
      intro v hv
      rcases Array.mem_push.1 hv with hv | rfl
      · exact D.items_within hs hl hv
      · exact hfirst
    exact Keeps.bind (Performs.modifyItems hl hpushed) (fun _ _ _ _ => Performs.plain rfl) hs
  | pop =>
    simp only [call]
    split
    · exact removeAt_performs hl
    · exact removeAt_performs hl
    · exact Performs.throw
  | extend =>
    simp only [call]
    split
    · next other hother =>
      refine Performs.bind_read rfl fun hs => ?_
      rw [hother] at hfirst
      have hjoined : ∀ v ∈ m.store.items l ++ m.store.items other, D.Carries w m.store v := by
        intro v hv
        rcases Array.mem_append.1 hv with hv | hv
        · exact D.items_within hs hl hv
        · exact D.items_within hs (Value.within_list.1 hfirst) hv
      exact Keeps.bind (Performs.modifyItems hl hjoined) fun _ _ _ _ => Performs.plain rfl
    · exact Performs.throw
  | contains => exact Performs.bind_read rfl fun _ => Performs.plain rfl
  | join =>
    refine Keeps.bind separatorText_performs fun _ _ _ _ => ?_
    exact Performs.bind_read rfl fun _ => Performs.plain rfl
  | get =>
    simp only [call]
    split
    · refine Performs.bind_read rfl fun hs => ?_
      split
      · next v hv => exact Keeps.pure (D.items_within hs hl (Operator.mem_of_listIndex?_bind hv))
      · exact Performs.throw
    · exact Performs.throw

end ListMethod

namespace ObjectMethod

variable {o : ObjectId}

/-- The methods of an object take entries out of it, and put none in. -/
theorem call_performs (method : ObjectMethod) (ho : D.Refers w m.store (.object o))
    (args : List Value) : D.Performs w E (D.Carries w) m (method.call o args) := by
  cases method with
  | keys =>
    refine Performs.bind_read rfl fun _ => Performs.newList fun v hv => ?_
    obtain ⟨key, -, rfl⟩ := List.mem_map.1 (List.mem_toArray.1 hv)
    exact Value.within_of_ref?_eq_none rfl
  | values =>
    refine Performs.bind_read rfl fun hs => Performs.newList fun v hv => ?_
    obtain ⟨entry, hentry, rfl⟩ := List.mem_map.1 (List.mem_toArray.1 hv)
    exact D.entries_within hs ho hentry
  | has =>
    refine Keeps.bind expectText_performs fun _ _ _ _ => ?_
    exact Performs.bind_read rfl fun _ => Performs.plain rfl
  | remove =>
    refine Keeps.bind expectText_performs fun key m' hlater _ => ?_
    have ho' : D.Refers w m'.store (.object o) := D.refers_mono hlater.grows ho
    refine Performs.bind_read rfl fun hs => ?_
    have hremoved : D.Carries w m'.store (((m'.store.entries o).get? key).getD .null) := by
      cases hget : (m'.store.entries o).get? key with
      | none => exact Value.within_null
      | some v => exact D.entries_within hs ho' (Table.mem_of_get? hget)
    have hrest : ∀ entry ∈ (m'.store.entries o).erase key, D.Carries w m'.store entry.2 :=
      fun entry hentry => D.entries_within hs ho' (Table.mem_of_mem_erase hentry)
    have hkeys := fun hnodup : (m'.store.entries o).keys.Nodup => Table.nodup_keys_erase hnodup key
    refine Keeps.bind (Performs.modifyEntries ho' hkeys hrest) fun _ m'' hlater' _ => ?_
    exact Keeps.pure (hlater'.carries hremoved)

end ObjectMethod

theorem FunctionMethod.call_performs (method : FunctionMethod) (f : Callable) :
    D.Performs w E (D.Carries w) m (method.call f) := by
  cases method with
  | name => exact Performs.plain rfl
  | arity => exact Performs.plain rfl

/-- **Built-in functions keep every discipline**, when the run may carry their receiver and their
arguments. -/
theorem Native.call_performs {f : Native} (hf : D.Carries w m.store (.callable (.native f)))
    (hargs : ∀ v ∈ args, D.Carries w m.store v) :
    D.Performs w E (D.Carries w) m (f.call args) := by
  cases f with
  | global g => exact g.call_performs args
  | text method s => exact method.call_performs s args
  | list method l => exact method.call_performs (hf _ rfl) hargs
  | object method o => exact method.call_performs (hf _ rfl) args
  | function method g => exact method.call_performs g

/-- A member is a method with the value as its receiver, or an entry of it. -/
theorem Value.member_performs {v : Value} (name : String) (hv : D.Carries w m.store v) :
    D.Performs w E (D.Carries w) m (v.member name) := by
  unfold Value.member
  split
  · next method hfind =>
    have hmem : method ∈ v.methods := List.mem_of_find?_eq_some hfind
    exact Keeps.pure (Value.within_of_ref?_eq (Value.ref?_of_mem_methods hmem) hv)
  · split
    · next o =>
      refine Performs.bind_read rfl fun hs => ?_
      split
      · next u hget =>
        exact Keeps.pure
          (D.entries_within hs (Value.within_object.1 hv) (Table.mem_of_get? hget))
      · exact Performs.throw
    · exact Performs.throw

/-- Binding arguments adds nothing but nulls. -/
theorem bindArgs_carries {f : Callable} {bound : List Value} (h : bindArgs f args = .ok bound)
    (hargs : ∀ v ∈ args, D.Carries w m.store v) : ∀ v ∈ bound, D.Carries w m.store v := by
  simp only [bindArgs] at h
  split at h
  · cases h
  · split at h
    · cases h
    · cases h
      intro v hv
      rcases List.mem_append.1 hv with hv | hv
      · exact hargs v hv
      · rw [List.eq_of_mem_replicate hv]
        exact Value.within_null

end Natives

end BpScript
