import BpScript.Proofs.Discipline.Builtin
import BpScript.Proofs.Watch

/-!
# Evaluation keeps every discipline

One lemma per construct, each under the assumption that the nodes inside are evaluated by a `visit`
that keeps the discipline; then one induction on the bound.

* `Loop.run_keeps` — all loops at once: what one step of the loop keeps, the whole loop keeps.
* `Construct.invoke_settles` — a call ends with a value, an error or for lack of a bound, and with
  nothing else.
* `Construct.load_settles` — an import.
* **`Node.evalWithin_keeps`** — evaluating any node.
-/

namespace BpScript

variable {W : Type} {D : Discipline W} {w : W} {E : ScopeId} {m : Machine}

/-! ## The store -/

theorem Discipline.Keeps.newObject {X : Store → Signal → Prop} {entries : Table String Value}
    (hkeys : entries.keys.Nodup) (h : ∀ entry ∈ entries, D.Carries w m.store entry.2) :
    D.Keeps w E X (D.Carries w) m (Eval.newObject entries) := by
  refine Keeps.of_store (Step.run_modifyGet _ m) fun hs => ?_
  obtain ⟨hsound, hgrows, hrefers⟩ := D.newObject E hs hkeys h
  exact ⟨hsound, hgrows, Value.within_object.2 hrefers⟩

namespace Discipline.Evaluates

theorem newList {items : Array Value} (h : ∀ v ∈ items, D.Carries w m.store v) :
    D.Evaluates w E (D.Carries w) m (Eval.newList items) := by
  refine Keeps.of_store (Step.run_modifyGet _ m) fun hs => ?_
  obtain ⟨hsound, hgrows, hrefers⟩ := D.newList E hs h
  exact ⟨hsound, hgrows, Value.within_list.2 hrefers⟩

theorem lookup {node : Node} {name : Ident} (hname : D.Points w name.span)
    (hn : D.Runs w m.store E node) :
    D.Evaluates w E (fun s binding => D.Carries w s binding.value ∧ D.Shows w binding.isPublic) m
      (Eval.lookup E name) :=
  bind_get fun hs => orRaise hname fun _ h => ⟨D.lookup_within hs hn h, D.shows_lookup hs hn h⟩

theorem bindName {node : Node} {name : String} {v : Value} {isPublic : Bool}
    (hn : D.Runs w m.store E node) (hv : D.Carries w m.store v) (hshow : D.Shows w isPublic) :
    D.Evaluates w E (fun _ _ => True) m (Eval.bind E name v isPublic) := by
  refine Keeps.of_store (Step.run_modify _ m) fun hs => ?_
  have hbinding : (⟨v, isPublic⟩ : Binding).value.Within (D.Refers w m.store) := hv
  obtain ⟨hsound, hgrows⟩ := D.bind hs hn hbinding hshow
  exact ⟨hsound, hgrows, trivial⟩

/-! ## Brackets -/

/-- How an iteration may end. -/
def IterationCarries (D : Discipline W) (w : W) (s : Store) : Iteration → Prop
  | .value v => D.Carries w s v
  | .skipped | .stopped => True

/-- A body that keeps the discipline inside one more loop makes an iteration that keeps it here:
the loop takes the signals that are for it. -/
theorem iteration {body : Eval Value}
    (h : D.Evaluates w E (D.Carries w) m.enteringLoop body) :
    D.Evaluates w E (IterationCarries D w) m (Eval.iteration body) := by
  intro hs
  obtain ⟨hlater, hends⟩ := h hs
  rw [Eval.run_iteration]
  refine ⟨⟨hlater.sound, hlater.grows, hlater.place.leavingLoop⟩, ?_⟩
  rcases hrun : body.run m.enteringLoop with ⟨outcome, m'⟩
  rw [hrun] at hends
  rcases outcome with (_ | _ | _ | _ | _ | _) | _
  all_goals first
    | exact trivial
    | exact hends

end Discipline.Evaluates

/-- Inside a call or module no loop is around, whatever is around the call. -/
theorem Discipline.Keeps.inContext {α : Type} {X Y : Store → Signal → Prop}
    {T : Store → α → Prop} {name : String} {step : Eval α}
    (h : D.Keeps w E X T (m.entering name) step) :
    D.Keeps w E Y (Ends X T) m (Eval.inContext name step) := by
  intro hs
  obtain ⟨hlater, hends⟩ := h hs
  rw [Eval.run_inContext]
  exact ⟨⟨hlater.sound, hlater.grows, hlater.place.leaving⟩, hends⟩

theorem Discipline.Keeps.whileImporting {α : Type} {X : Store → Signal → Prop}
    {T : Store → α → Prop} {path : String} {step : Eval α}
    (h : D.Keeps w E X T (m.enteringImport path) step) :
    D.Keeps w E X T m (Eval.whileImporting path step) := by
  intro hs
  obtain ⟨hlater, hends⟩ := h hs
  rw [Eval.run_whileImporting]
  exact ⟨⟨hlater.sound, hlater.grows, hlater.place.leavingImport⟩, hends⟩

theorem Discipline.Keeps.observe {α : Type} {X Y : Store → Signal → Prop}
    {T : Store → α → Prop} {step : Eval α} (h : D.Keeps w E X T m step) :
    D.Keeps w E Y (Ends X T) m (Eval.observe step) := by
  intro hs
  obtain ⟨hlater, hends⟩ := h hs
  rw [Eval.run_observe]
  exact ⟨hlater, hends⟩

theorem Discipline.Keeps.conclude {α : Type} {X : Store → Signal → Prop} {T : Store → α → Prop}
    {outcome : Except Signal α} (h : Ends X T m.store outcome) :
    D.Keeps w E X T m (Eval.conclude outcome) := by
  intro hs
  rw [Eval.run_conclude]
  exact ⟨.refl hs, h⟩

open Discipline

variable {visit : Visit}

namespace Construct

/-! ## Containers -/

theorem evalAll_keeps (hv : D.Visits visit) :
    ∀ {m : Machine} (nodes : List Node), (∀ node ∈ nodes, D.Runs w m.store E node) →
      D.Evaluates w E (fun s values => ∀ v ∈ values, D.Carries w s v) m (evalAll visit E nodes)
  | _, [], _ => Evaluates.pure (by simp)
  | m, node :: rest, h => by
    rw [evalAll, List.mapM_cons]
    refine (hv (h node List.mem_cons_self)).bind fun v m' hlater hcarries => ?_
    have hrest : ∀ n ∈ rest, D.Runs w m'.store E n :=
      fun n hn => hlater.runs (h n (List.mem_cons_of_mem _ hn))
    refine (evalAll_keeps hv rest hrest).bind fun values m'' hlater' hvalues => ?_
    refine Evaluates.pure fun u hu => ?_
    rcases List.mem_cons.1 hu with rfl | hu
    · exact hlater'.carries hcarries
    · exact hvalues u hu

theorem list_keeps (hv : D.Visits visit) {items : List Node}
    (h : ∀ node ∈ items, D.Runs w m.store E node) :
    D.Evaluates w E (D.Carries w) m (list visit E items) := by
  refine (evalAll_keeps hv items h).bind fun values m' _ hvalues => ?_
  exact Evaluates.newList fun v hmem => hvalues v (List.mem_toArray.1 hmem)

theorem object_keeps (hv : D.Visits visit) {entries : List (Ident × Node)}
    (h : ∀ node ∈ entries.map (·.2), D.Runs w m.store E node) :
    D.Evaluates w E (D.Carries w) m (object visit E entries) := by
  refine (evalAll_keeps hv _ h).bind fun values m' _ hvalues => ?_
  refine Keeps.newObject (Table.nodup_keys_ofEntries _) fun entry hentry => ?_
  exact hvalues entry.2 (List.of_mem_zip (Table.mem_of_mem_ofEntries hentry)).2

/-! ## Names -/

theorem declare_keeps (hv : D.Visits visit) {name : Ident} {value : Node} {isPublic : Bool}
    (hshow : D.Shows w isPublic) (h : D.Runs w m.store E value) :
    D.Evaluates w E (D.Carries w) m (declare visit E name value isPublic) := by
  refine (hv h).bind fun v m' hlater hcarries => ?_
  refine (Evaluates.bindName (hlater.runs h) hcarries hshow).bind fun _ m'' hlater' _ => ?_
  exact Evaluates.pure (hlater'.carries hcarries)

theorem update_keeps (hv : D.Visits visit) {name : Ident} {op : AssignOp} {value : Node}
    (hname : D.Points w name.span) (h : D.Runs w m.store E value) :
    D.Evaluates w E (D.Carries w) m (update visit E name op value) := by
  refine (Evaluates.lookup hname h).bind fun old m₁ hlater₁ ⟨hold, hshow⟩ => ?_
  refine (hv (hlater₁.runs h)).bind fun v m₂ hlater₂ hcarries => ?_
  have hassign := Operator.assign_performs (E := E) op (hlater₂.carries hold) hcarries
  refine (Evaluates.located (D.points_node h) hassign).bind fun updated m₃ hlater₃ hupdated => ?_
  have hruns := hlater₃.runs (hlater₂.runs (hlater₁.runs h))
  refine (Evaluates.bindName hruns hupdated hshow).bind fun _ m₄ hlater₄ _ => ?_
  exact Evaluates.pure (hlater₄.carries hupdated)

theorem expectObject_keeps {name : Ident} {v : Value} (hname : D.Points w name.span)
    (h : D.Carries w m.store v) :
    D.Evaluates w E (fun s id => D.Refers w s (.object id)) m (expectObject name v) := by
  cases v with
  | object id => exact Evaluates.pure (Value.within_object.1 h)
  | _ => exact Evaluates.raise hname

theorem entryOf_keeps {object : ObjectId} {name : Ident} (hname : D.Points w name.span)
    (h : D.Refers w m.store (.object object)) :
    D.Evaluates w E (D.Carries w) m (entryOf object name) :=
  Evaluates.bind_get fun hs => Evaluates.orRaise hname fun _ hget =>
    D.entries_within hs h (Table.mem_of_get? hget)

/-- Every object on a dotted path is an entry of the one before it. -/
theorem ownerOf_keeps : ∀ {m : Machine} {object : ObjectId} (rest : List Ident) (first : Ident),
    (∀ name ∈ first :: rest, D.Points w name.span) → D.Refers w m.store (.object object) →
      D.Evaluates w E (fun s owner => D.Refers w s (.object owner.1) ∧ D.Points w owner.2.span) m
        (ownerOf object first rest)
  | _, _, [], _, hnames, h => Evaluates.pure ⟨h, hnames _ List.mem_cons_self⟩
  | _, _, next :: rest, _, hnames, h => by
    have hname := hnames _ List.mem_cons_self
    refine (entryOf_keeps hname h).bind fun v m' _ hcarries => ?_
    refine (expectObject_keeps hname hcarries).bind fun inner m'' _ hinner => ?_
    exact ownerOf_keeps rest next (fun name hmem => hnames name (List.mem_cons_of_mem _ hmem))
      hinner

/-- The last step of a dotted assignment: the new value becomes an entry of the owner. -/
theorem setEntry_keeps {owner : ObjectId} {name : String} {updated : Value} {span : Span}
    (hspan : D.Points w span) (howner : D.Refers w m.store (.object owner))
    (hupdated : D.Carries w m.store updated) :
    D.Evaluates w E (D.Carries w) m (do
      Eval.located span (Action.modifyEntries owner (·.set name updated))
      return updated) := by
  intro hs
  have hentries : ∀ entry ∈ (m.store.entries owner).set name updated,
      D.Carries w m.store entry.2 := by
    intro entry hentry
    rcases Table.mem_of_mem_set hentry with rfl | hentry
    · exact hupdated
    · exact D.entries_within hs howner hentry
  have hset := Performs.modifyEntries (E := E) howner
    (fun hnodup => Table.nodup_keys_set hnodup name updated) hentries
  refine Evaluates.bind (Evaluates.located hspan hset) (fun _ m' hlater _ => ?_) hs
  exact Evaluates.pure (hlater.carries hupdated)

theorem memberAssign_keeps (hv : D.Visits visit) {path : List Ident} {op : AssignOp}
    {value : Node} (hpath : ∀ name ∈ path, D.Points w name.span) (h : D.Runs w m.store E value) :
    D.Evaluates w E (D.Carries w) m (memberAssign visit E path op value) := by
  unfold memberAssign
  split
  · next first second rest =>
    have hfirst := hpath first List.mem_cons_self
    refine (Evaluates.lookup hfirst h).bind fun binding m₁ hlater₁ ⟨hbinding, _⟩ => ?_
    refine (expectObject_keeps hfirst hbinding).bind fun root m₂ hlater₂ hroot => ?_
    refine (ownerOf_keeps rest second (fun name hmem => hpath name (List.mem_cons_of_mem _ hmem))
      hroot).bind fun owner m₃ hlater₃ ⟨howner, hlast⟩ => ?_
    have hlater := hlater₁.trans (hlater₂.trans hlater₃)
    refine (hv (hlater.runs h)).bind fun v m₄ hlater₄ hcarries => ?_
    have howner₄ := D.refers_mono hlater₄.grows howner
    have hvalue : D.Points w value.span := D.points_node h
    split
    · exact setEntry_keeps hvalue howner₄ hcarries
    · refine (entryOf_keeps hlast howner₄).bind fun old m₅ hlater₅ hold => ?_
      have hassign : D.Performs w E (D.Carries w) m₅ (Operator.assign op old v) :=
        Operator.assign_performs op hold (hlater₅.carries hcarries)
      refine (Evaluates.located hvalue hassign).bind fun updated m₆ hlater₆ hupdated => ?_
      have howner₆ := D.refers_mono (hlater₅.trans hlater₆).grows howner₄
      exact setEntry_keeps hvalue howner₆ hupdated
  · exact Evaluates.pure Value.within_null

/-! ## Operators -/

theorem binary_keeps (hv : D.Visits visit) {lhs rhs : Node} {op : BinaryOp}
    (hl : D.Runs w m.store E lhs) (hr : D.Runs w m.store E rhs) :
    D.Evaluates w E (D.Carries w) m (binary visit E lhs op rhs) := by
  refine (hv hl).bind fun left m₁ hlater₁ hleft => ?_
  refine (hv (hlater₁.runs hr)).bind fun right m₂ hlater₂ hright => ?_
  exact Evaluates.located (D.points_node hr)
    (Operator.binary_performs op (hlater₂.carries hleft) hright)

theorem unary_keeps (hv : D.Visits visit) {op : UnaryOp} {operand : Node}
    (h : D.Runs w m.store E operand) :
    D.Evaluates w E (D.Carries w) m (unary visit E op operand) :=
  (hv h).bind fun v _ _ _ => Evaluates.located (D.points_node h) (Operator.unary_performs op v)

theorem member_keeps (hv : D.Visits visit) {target : Node} {name : Ident}
    (hname : D.Points w name.span) (h : D.Runs w m.store E target) :
    D.Evaluates w E (D.Carries w) m (member visit E target name) :=
  (hv h).bind fun _ _ _ hcarries =>
    Evaluates.located hname (Value.member_performs name.name hcarries)

/-! ## Choices -/

theorem armBody_keeps (hv : D.Visits visit) {body : Body} (h : D.Runs w m.store E body.node) :
    D.Evaluates w E (D.Carries w) m (armBody visit E body) := by
  refine (hv h).bind fun v m' _ hcarries => Evaluates.pure ?_
  split
  · exact Value.within_null
  · exact hcarries

theorem conditional_keeps (hv : D.Visits visit) {otherwise : Option Body} :
    ∀ {m : Machine} (arms : List (Node × Body)),
      (∀ arm ∈ arms, D.Runs w m.store E arm.1 ∧ D.Runs w m.store E arm.2.node) →
      (∀ body, otherwise = some body → D.Runs w m.store E body.node) →
      D.Evaluates w E (D.Carries w) m (conditional visit E otherwise arms)
  | _, [], _, hotherwise => by
    unfold conditional
    split
    · next body => exact armBody_keeps hv (hotherwise body rfl)
    · exact Evaluates.pure Value.within_null
  | _, (condition, body) :: rest, harms, hotherwise => by
    obtain ⟨hcondition, hbody⟩ := harms _ List.mem_cons_self
    unfold conditional
    refine (hv hcondition).bind fun v m' hlater _ => ?_
    split
    · exact armBody_keeps hv (hlater.runs hbody)
    · refine conditional_keeps hv rest (fun arm harm => ?_) fun body hb => ?_
      · obtain ⟨hc, hb⟩ := harms arm (List.mem_cons_of_mem _ harm)
        exact ⟨hlater.runs hc, hlater.runs hb⟩
      · exact hlater.runs (hotherwise body hb)

theorem switchCases_keeps (hv : D.Visits visit) {subject : Value} {otherwise : Option Node} :
    ∀ {m : Machine} (cases : List (Node × Node)),
      (∀ entry ∈ cases, D.Runs w m.store E entry.1 ∧ D.Runs w m.store E entry.2) →
      (∀ body, otherwise = some body → D.Runs w m.store E body) →
      D.Evaluates w E (D.Carries w) m (switchCases visit E subject otherwise cases)
  | _, [], _, hotherwise => by
    unfold switchCases
    split
    · next body =>
      exact (hv (hotherwise body rfl)).discard.bind fun _ _ _ _ => Evaluates.pure Value.within_null
    · exact Evaluates.pure Value.within_null
  | _, (pattern, body) :: rest, hcases, hotherwise => by
    obtain ⟨hpattern, hbody⟩ := hcases _ List.mem_cons_self
    unfold switchCases
    refine (hv hpattern).bind fun v m' hlater _ => Evaluates.bind_get fun _ => ?_
    split
    · exact (hv (hlater.runs hbody)).discard.bind fun _ _ _ _ => Evaluates.pure Value.within_null
    · refine switchCases_keeps hv rest (fun entry hentry => ?_) fun body hb => ?_
      · obtain ⟨hp, hb⟩ := hcases entry (List.mem_cons_of_mem _ hentry)
        exact ⟨hlater.runs hp, hlater.runs hb⟩
      · exact hlater.runs (hotherwise body hb)

/-- A number that a counting loop needs refers to nothing, so only its evaluation matters. -/
theorem numberFor_keeps (hv : D.Visits visit) {node : Node} (h : D.Runs w m.store E node) :
    D.Evaluates w E (fun _ _ => True) m (numberFor visit E node) := by
  refine (hv h).bind fun v m' _ _ => ?_
  split
  · exact Evaluates.pure trivial
  · exact Evaluates.raise (D.points_node h)

end Construct

/-! ## Loops -/

namespace Loop

/-- **All loops.**  `I` is what a loop carries on from one iteration to the next.  If it survives
the body, and a step of the loop gives it on, then the whole loop keeps the discipline and has
collected only values that the run may carry. -/
theorem run_keeps {σ : Type} (hv : D.Visits visit) {body : Node} {step : σ → Eval (Option σ)}
    {I : Store → σ → Prop}
    (hI : ∀ {m m' : Machine} {state : σ}, D.Later w E m m' → I m.store state → I m'.store state)
    (hstep : ∀ {m : Machine} {state : σ}, D.Runs w m.store E body → I m.store state →
      D.Evaluates w E (fun s next => ∀ state, next = some state → I s state) m (step state)) :
    ∀ (bound : Nat) {m : Machine} {state : σ} {done : Array Value},
      D.Runs w m.store E body → I m.store state → (∀ v ∈ done, D.Carries w m.store v) →
      D.Evaluates w E (fun s result => ∀ values, result = some values →
        ∀ v ∈ values, D.Carries w s v) m (run step (visit E body) bound state done)
  | 0, _, _, _, _, _, _ => Evaluates.throw_exhausted
  | bound + 1, m, state, done, hbody, hstate, hdone => by
    unfold run
    refine (hstep hbody hstate).bind fun next m₁ hlater₁ hnext => ?_
    have hbody₁ := hlater₁.runs hbody
    split
    · refine Evaluates.pure fun values hvalues v hmem => ?_
      cases hvalues
      exact hlater₁.carries (hdone v hmem)
    · next state₁ =>
      have hstate₁ : I m₁.store state₁ := hnext state₁ rfl
      have hiteration : D.Evaluates w E (D.Carries w) m₁.enteringLoop (visit E body) := hv hbody₁
      refine hiteration.iteration.bind fun iteration m₂ hlater₂ hvalue => ?_
      have hlater := hlater₁.trans hlater₂
      have hdone₂ : ∀ v ∈ done, D.Carries w m₂.store v := fun v hmem =>
        hlater.carries (hdone v hmem)
      have hbody₂ := hlater₂.runs hbody₁
      have hstate₂ := hI hlater₂ hstate₁
      split
      · next v =>
        refine run_keeps hv hI hstep bound hbody₂ hstate₂ fun u hu => ?_
        rcases Array.mem_push.1 hu with hu | rfl
        · exact hdone₂ u hu
        · exact hvalue
      · exact run_keeps hv hI hstep bound hbody₂ hstate₂ hdone₂
      · exact Evaluates.pure fun values hvalues => by cases hvalues

theorem value_keeps {isBlock : Bool} {result : Option (Array Value)}
    (h : ∀ values, result = some values → ∀ v ∈ values, D.Carries w m.store v) :
    D.Evaluates w E (D.Carries w) m (value isBlock result) := by
  cases result with
  | none => exact Evaluates.pure Value.within_null
  | some values =>
    cases isBlock with
    | true => exact Evaluates.pure Value.within_null
    | false => exact Evaluates.newList (h values rfl)

theorem countStep_keeps {node : Node} {name : String} {last stride i : Float}
    (h : D.Runs w m.store E node) :
    D.Evaluates w E (fun _ _ => True) m (countStep E name last stride i) :=
  (Evaluates.bindName h (Value.within_of_ref?_eq_none rfl) (D.shows_private w)).bind
    fun _ _ _ _ => Evaluates.pure trivial

/-- The list is read anew in each step, so what the body put into it is covered too. -/
theorem listStep_keeps {node : Node} {name : String} {list : ListId} {i : Nat}
    (h : D.Runs w m.store E node) (hlist : D.Refers w m.store (.list list)) :
    D.Evaluates w E (fun s _ => D.Refers w s (.list list)) m (listStep E name list i) := by
  refine Evaluates.bind_get fun hs => ?_
  split
  · next item hget =>
    have hitem := D.items_within hs hlist (Array.mem_of_getElem? hget)
    refine (Evaluates.bindName h hitem (D.shows_private w)).bind fun _ m' hlater _ => ?_
    exact Evaluates.pure (D.refers_mono hlater.grows hlist)
  · exact Evaluates.pure hlist

theorem objectStep_keeps {node : Node} {key value : String} {entries : Table String Value}
    (h : D.Runs w m.store E node) (hentries : ∀ entry ∈ entries, D.Carries w m.store entry.2) :
    D.Evaluates w E (fun s next => ∀ rest, next = some rest →
      ∀ entry ∈ rest, D.Carries w s entry.2) m (objectStep E key value entries) := by
  cases entries with
  | nil => exact Evaluates.pure fun rest hrest => by cases hrest
  | cons first rest =>
    have hkey : D.Carries w m.store (.text first.1) := Value.within_of_ref?_eq_none rfl
    have hshow := D.shows_private w
    refine (Evaluates.bindName h hkey hshow).bind fun _ m₁ hlater₁ _ => ?_
    have hfirst := hlater₁.carries (hentries first List.mem_cons_self)
    refine (Evaluates.bindName (hlater₁.runs h) hfirst hshow).bind fun _ m₂ hlater₂ _ => ?_
    refine Evaluates.pure fun rest' hrest entry hentry => ?_
    cases hrest
    exact (hlater₁.trans hlater₂).carries (hentries entry (List.mem_cons_of_mem _ hentry))

theorem whileStep_keeps (hv : D.Visits visit) {condition : Node}
    (h : D.Runs w m.store E condition) :
    D.Evaluates w E (fun s _ => D.Runs w s E condition) m (whileStep (visit E condition) ()) :=
  (hv h).bind fun _ _ hlater _ => Evaluates.pure (hlater.runs h)

end Loop

namespace Construct

theorem forCount_keeps (hv : D.Visits visit) {bound : Nat} {name : Ident} {first last : Node}
    {step : Option Node} {body : Body} (hfirst : D.Runs w m.store E first)
    (hlast : D.Runs w m.store E last) (hstep : ∀ node, step = some node → D.Runs w m.store E node)
    (hbody : D.Runs w m.store E body.node) :
    D.Evaluates w E (D.Carries w) m (forCount visit bound E name first last step body) := by
  have hloop : ∀ {m' : Machine} {start stop stride : Float}, D.Later w E m m' →
      D.Evaluates w E (D.Carries w) m' (do
        let values ← Loop.run (Loop.countStep E name.name stop stride) (visit E body.node) bound
          start #[]
        Loop.value body.isBlock values) := by
    intro m' start stop stride hlater
    refine (Loop.run_keeps hv (I := fun _ _ => True) (fun _ _ => trivial) (fun h _ => ?_) bound
      (hlater.runs hbody) trivial (by simp)).bind fun _ _ _ hvalues => Loop.value_keeps hvalues
    exact (Loop.countStep_keeps h).weaken fun _ _ _ _ _ => trivial
  refine (numberFor_keeps hv hfirst).bind fun start m₁ hlater₁ _ => ?_
  refine (numberFor_keeps hv (hlater₁.runs hlast)).bind fun stop m₂ hlater₂ _ => ?_
  have hlater := hlater₁.trans hlater₂
  split
  · next node =>
    refine (numberFor_keeps hv (hlater.runs (hstep node rfl))).bind fun stride m₃ hlater₃ _ => ?_
    exact hloop (hlater.trans hlater₃)
  · exact hloop hlater

theorem forList_keeps (hv : D.Visits visit) {bound : Nat} {name : Ident} {list : Node}
    {body : Body} (hlist : D.Runs w m.store E list) (hbody : D.Runs w m.store E body.node) :
    D.Evaluates w E (D.Carries w) m (forList visit bound E name list body) := by
  refine (hv hlist).bind fun v m₁ hlater₁ hcarries => ?_
  split
  · next id =>
    refine (Loop.run_keeps hv (I := fun s _ => D.Refers w s (.list id))
      (fun hlater h => D.refers_mono hlater.grows h) (fun hn h => ?_) bound
      (hlater₁.runs hbody) (Value.within_list.1 hcarries) (by simp)).bind
      fun _ _ _ hvalues => Loop.value_keeps hvalues
    exact (Loop.listStep_keeps hn h).weaken fun _ _ h _ _ => h
  · exact Evaluates.raise (D.points_node hlist)

theorem forObject_keeps (hv : D.Visits visit) {bound : Nat} {key value : Ident} {object : Node}
    {body : Body} (hobject : D.Runs w m.store E object) (hbody : D.Runs w m.store E body.node) :
    D.Evaluates w E (D.Carries w) m (forObject visit bound E key value object body) := by
  refine (hv hobject).bind fun v m₁ hlater₁ hcarries => ?_
  split
  · next id =>
    refine Evaluates.bind_get fun hs => ?_
    have hentries : ∀ entry ∈ m₁.store.entries id, D.Carries w m₁.store entry.2 :=
      fun entry hentry => D.entries_within hs (Value.within_object.1 hcarries) hentry
    refine (Loop.run_keeps hv (I := fun s (entries : Table String Value) =>
      ∀ entry ∈ entries, D.Carries w s entry.2)
      (fun hlater h entry hentry => hlater.carries (h entry hentry)) Loop.objectStep_keeps bound
      (hlater₁.runs hbody) hentries (by simp)).bind fun _ _ _ hvalues => Loop.value_keeps hvalues
  · exact Evaluates.raise (D.points_node hobject)

theorem whileLoop_keeps (hv : D.Visits visit) {bound : Nat} {condition : Node} {body : Body}
    (hcondition : D.Runs w m.store E condition) (hbody : D.Runs w m.store E body.node) :
    D.Evaluates w E (D.Carries w) m (whileLoop visit bound E condition body) := by
  refine (Loop.run_keeps hv (I := fun s _ => D.Runs w s E condition)
    (fun hlater h => hlater.runs h) (fun _ h => ?_) bound hbody hcondition (by simp)).bind
    fun _ _ _ hvalues => Loop.value_keeps hvalues
  exact (Loop.whileStep_keeps hv h).weaken fun _ _ h _ _ => h

/-! ## Functions -/

theorem function_keeps {node : Node} {definition : Function} (h : D.Runs w m.store E node)
    (hform : node.form = .function definition) :
    D.Evaluates w E (D.Carries w) m (function E definition) := by
  have hclosure : D.Carries w m.store (.callable (.closure ⟨definition, E⟩)) :=
    Value.within_closure.2 (D.refers_closure h hform)
  unfold function
  split
  · have hshow := D.shows_function h hform
    refine (Evaluates.bindName h hclosure hshow).bind fun _ m' hlater _ => ?_
    exact Evaluates.pure (hlater.carries hclosure)
  · exact Evaluates.pure hclosure

end Construct

/-- The signals that leave a call or an import: an error, or the lack of a bound. -/
def Discipline.Settles (D : Discipline W) (w : W) : Signal → Prop
  | .error e => D.Locates w e
  | .exhausted => True
  | _ => False

namespace Construct

/-- A step that ends with a value or settles. -/
abbrev SettlesWith (D : Discipline W) {α : Type} (w : W) (E : ScopeId) (T : Store → α → Prop)
    (m : Machine) (step : Eval α) : Prop :=
  D.Keeps w E (fun _ signal => D.Settles w signal) T m step

theorem SettlesWith.raise {α : Type} {T : Store → α → Prop} {fault : Fault} {span : Span}
    (h : D.Points w span) : SettlesWith D w E T m (Eval.raise fault span) :=
  Keeps.throw (locates_fault h)

theorem SettlesWith.evaluates {α : Type} {T : Store → α → Prop} {step : Eval α}
    (h : SettlesWith D w E T m step) : D.Evaluates w E T m step := by
  refine Keeps.weaken h (fun s signal hsignal => ?_) fun _ _ => id
  cases signal with
  | error _ => exact hsignal
  | exhausted => trivial
  | _ => exact hsignal.elim

/-- Without a loop around it, what is permitted settles, unless it is a `return`. -/
theorem settles_of_permits {s : Store} {signal : Signal} (h : D.Permits w 0 s signal)
    (hreturned : ∀ v, signal ≠ .returned v) : D.Settles w signal := by
  cases signal with
  | error _ => exact h
  | exhausted => trivial
  | returned v => exact (hreturned v rfl).elim
  | broke => exact absurd h (Nat.lt_irrefl 0)
  | continued => exact absurd h (Nat.lt_irrefl 0)
  | unreachable => exact h.elim

/-- The body of a function: its `return` ends the call, and no loop is around it that could take
its other signals. -/
theorem functionBody_settles (hv : D.Visits visit) {body : Node} (autoReturn : Bool)
    (hdepth : m.loopDepth = 0) (h : D.Runs w m.store E body) :
    SettlesWith D w E (D.Carries w) m (do
      match ← Eval.observe (visit E body) with
      | .ok v => return if autoReturn then v else .null
      | .error (.returned v) => return v
      | .error signal => throw signal) := by
  refine Keeps.bind (hv h).observe fun outcome m' _ hends => ?_
  rw [hdepth] at hends
  split
  · refine Keeps.pure ?_
    split
    · exact hends
    · exact Value.within_null
  · exact Keeps.pure hends
  · next signal hreturned =>
    exact Keeps.throw (settles_of_permits hends fun v hv => hreturned v hv)

theorem runClosure_settles (hv : D.Visits visit) {c : Closure} {args : List Value}
    (hmakes : D.Makes w ⟨m.store.scopes.size⟩ (.call c)) (hdepth : m.loopDepth = 0)
    (hc : D.Refers w m.store (.closure c))
    (hargs : ∀ v ∈ args, D.Carries w m.store v) :
    SettlesWith D w E (D.Carries w) m (runClosure visit c args) := by
  intro hs
  let bindings : Table String Binding := Table.ofEntries
    ((c.definition.params.map (·.ident.name)).zip (args.map fun v => ⟨v, false⟩))
  have hbindings : ∀ entry ∈ bindings, ∃ v ∈ args, ⟨v, false⟩ = entry.2 := fun entry hentry =>
    List.mem_map.1 (List.of_mem_zip (Table.mem_of_mem_ofEntries hentry)).2
  have hcarries : ∀ entry ∈ bindings, D.Carries w m.store entry.2.value := by
    intro entry hentry
    obtain ⟨v, hmem, heq⟩ := hbindings entry hentry
    rw [← heq]
    exact hargs v hmem
  have hprivate : ∀ entry ∈ bindings, D.Shows w entry.2.isPublic := by
    intro entry hentry
    obtain ⟨v, -, heq⟩ := hbindings entry hentry
    rw [← heq]
    exact D.shows_private w
  obtain ⟨hsound, hruns, hgrows⟩ := D.call hs hc hcarries hprivate hmakes
  let made := m.store.newScope ⟨bindings, some c.scope⟩
  -- the body runs in its own scope; the law of calls leads back to the caller's
  have hbody := functionBody_settles (m := { m with store := made.2 }) hv
    c.definition.autoReturn hdepth hruns hsound
  have hrun : (runClosure visit c args).run m = _ := Step.run_bind_ok (Step.run_modifyGet _ m)
  rw [hrun]
  exact ⟨⟨hbody.1.sound, hgrows E _ hbody.1.grows, hbody.1.place.of_store⟩, hbody.2⟩

theorem native_settles {n : Native} {args : List Value} {span : Span} (hspan : D.Points w span)
    (hf : D.Carries w m.store (.callable (.native n))) (hargs : ∀ v ∈ args, D.Carries w m.store v) :
    SettlesWith D w E (D.Carries w) m (Eval.located span (n.call args)) :=
  Keeps.located (Native.call_performs hf hargs) hspan fun _ _ => id

theorem apply_settles (hv : D.Visits visit) {f : Callable} {args : List Value} {span : Span}
    (hmakes : ∀ c, D.Makes w ⟨m.store.scopes.size⟩ (.call c)) (hdepth : m.loopDepth = 0)
    (hspan : D.Points w span) (hf : D.Carries w m.store (.callable f))
    (hargs : ∀ v ∈ args, D.Carries w m.store v) :
    SettlesWith D w E (D.Carries w) m (apply visit f args span) := by
  cases f with
  | closure c => exact runClosure_settles hv (hmakes c) hdepth (Value.within_closure.1 hf) hargs
  | native n => exact native_settles hspan hf hargs

/-- A call settles if what it runs does. -/
theorem invokeBy_settles {apply : Callable → List Value → Span → Eval Value} {f : Callable}
    {args : List Value} {span : Span} (hspan : D.Points w span)
    (h : ∀ bound, (∀ v ∈ bound, D.Carries w m.store v) →
      SettlesWith D w E (D.Carries w) (m.entering f.name) (apply f bound span))
    (hargs : ∀ v ∈ args, D.Carries w m.store v) :
    SettlesWith D w E (D.Carries w) m (invokeBy apply f args span) := by
  unfold invokeBy
  split
  · exact SettlesWith.raise hspan
  · next bound hbound =>
    refine Keeps.bind_get fun _ => ?_
    split
    · exact SettlesWith.raise hspan
    · refine Keeps.bind_get fun _ => ?_
      have hcall := h bound (bindArgs_carries hbound hargs)
      refine Keeps.bind hcall.inContext fun outcome m' _ hends => ?_
      split
      · next e => exact Keeps.throw (Locates.leaving (show D.Locates w e from hends) hspan)
      · exact Keeps.conclude hends

/-- **Calls settle.**  Whatever is called and whatever it does, the call ends with a value, an
error or for lack of a bound. -/
theorem invoke_settles (hv : D.Visits visit) {f : Callable} {args : List Value} {span : Span}
    (hmakes : ∀ c, D.Makes w ⟨m.store.scopes.size⟩ (.call c)) (hspan : D.Points w span)
    (hf : D.Carries w m.store (.callable f)) (hargs : ∀ v ∈ args, D.Carries w m.store v) :
    SettlesWith D w E (D.Carries w) m (invoke visit f args span) :=
  invokeBy_settles hspan (fun _ hbound => apply_settles hv hmakes rfl hspan hf hbound) hargs

theorem callBy_keeps (hv : D.Visits visit) {invoke : Callable → List Value → Span → Eval Value}
    {callee : Node} {args : List Node} {span : Span} (hcallee : D.Runs w m.store E callee)
    (hargs : ∀ node ∈ args, D.Runs w m.store E node)
    (hinvoke : ∀ {m' : Machine} {f : Callable} {values : List Value},
      D.Carries w m'.store (.callable f) → (∀ v ∈ values, D.Carries w m'.store v) →
      SettlesWith D w E (D.Carries w) m' (invoke f values span)) :
    D.Evaluates w E (D.Carries w) m (callBy visit invoke E callee args span) := by
  refine (hv hcallee).bind fun f m₁ hlater₁ hf => ?_
  have hargs₁ : ∀ node ∈ args, D.Runs w m₁.store E node :=
    fun node hnode => hlater₁.runs (hargs node hnode)
  refine (evalAll_keeps hv args hargs₁).bind fun values m₂ hlater₂ hvalues => ?_
  split
  · exact (hinvoke (hlater₂.carries hf) hvalues).evaluates
  · exact Evaluates.raise (D.points_node hcallee)

/-! ## Modules -/

/-- A step that comes to its end, unless the bound is too low. -/
abbrev Finishes (D : Discipline W) {α : Type} (w : W) (E : ScopeId) (T : Store → α → Prop)
    (m : Machine) (step : Eval α) : Prop :=
  D.Keeps w E (fun _ signal => signal = .exhausted) T m step

/-- A program takes `return` and errors itself, and no loop is around it that could take its other
signals: it comes to its end, unless the bound is too low. -/
theorem program_finishes (hv : D.Visits visit) {root : Node} (hdepth : m.loopDepth = 0)
    (h : D.Runs w m.store E root) :
    Finishes D w E (fun _ result => ∀ e, result = .error e → D.Locates w e) m
      (program visit E root) := by
  refine Keeps.bind (hv h).observe fun outcome m' _ hends => ?_
  rw [hdepth] at hends
  split
  · exact Keeps.pure nofun
  · exact Keeps.pure nofun
  · refine Keeps.pure fun e he => ?_
    cases he
    exact hends
  · exact absurd hends (Nat.lt_irrefl 0)
  · exact absurd hends (Nat.lt_irrefl 0)
  · next signal hreturned herror _ _ =>
    refine Keeps.throw ?_
    have hsettles := settles_of_permits hends fun v hv => hreturned v hv
    cases signal with
    | error e => exact (herror e rfl).elim
    | exhausted => rfl
    | _ => exact hsettles.elim

theorem runModule_finishes (hv : D.Visits visit) {path lib text : String}
    (h : ∀ root, Node.ofSource ⟨lib, text⟩ = .ok root → D.Runs w m.store E root) :
    Finishes D w E (fun _ _ => True) m (runModule visit path lib text E) := by
  unfold runModule
  split
  · exact Keeps.pure trivial
  · exact Keeps.throw rfl
  · next root hroot =>
    refine Keeps.whileImporting ?_
    let started := (m.enteringImport path).entering s!"<module {lib}>"
    have hruns : D.Runs w started.store E root := h root hroot
    have hprogram : Finishes D w E (fun _ _ => True) started (program visit E root) :=
      (program_finishes hv rfl hruns).weaken (fun _ _ => id) fun _ _ _ => trivial
    exact Keeps.bind hprogram.inContext fun outcome m' _ hends => Keeps.conclude hends

/-- What a scope exports is bound in it. -/
theorem mem_bindings_of_mem_publicSymbols {s : Store} {scope : ScopeId} {entry : String × Value}
    (h : entry ∈ s.publicSymbols scope) : ∃ bound ∈ s.bindings scope, bound.2.value = entry.2 := by
  rw [Store.publicSymbols, List.mem_mergeSort] at h
  obtain ⟨bound, hbound, rfl⟩ := List.mem_map.1 h
  exact ⟨bound, (List.mem_filter.1 hbound).1, rfl⟩

/-- The end of an import: what the module has bound becomes an object. -/
theorem collect_settles {scope : ScopeId} (path : String) {span : Span}
    (hspan : D.Points w span) (outcome : Except Diagnostic Value)
    (h : ∀ entry ∈ m.store.bindings scope, D.Carries w m.store entry.2.value) :
    SettlesWith D w E (D.Carries w) m (match outcome with
      | .error e => Eval.raise (.failedScript path e.traceback) span
      | .ok _ => do Eval.newObject (Table.ofEntries ((← get).store.publicSymbols scope))) := by
  split
  · exact SettlesWith.raise hspan
  · refine Keeps.bind_get fun _ => Keeps.newObject (Table.nodup_keys_ofEntries _)
      fun entry hentry => ?_
    obtain ⟨bound, hbound, heq⟩ :=
      mem_bindings_of_mem_publicSymbols (Table.mem_of_mem_ofEntries hentry)
    rw [← heq]
    exact h bound hbound

/-- **Imports settle.**  The module runs under its own part of the discipline; the law of imports
hands back its store and what it has bound. -/
theorem loadBy_settles {run : (path lib text : String) → ScopeId → Eval (Except Diagnostic Value)}
    {lib : String} {span : Span} (hspan : D.Points w span) (himports : D.Imports w)
    (hrun : ∀ {inner : W} {scope : ScopeId} {m' : Machine} (path text : String),
      (∀ root, D.Makes w scope (.module ⟨lib, text⟩) → Node.ofSource ⟨lib, text⟩ = .ok root →
        D.Runs inner m'.store scope root) →
      Finishes D inner scope (fun _ _ => True) m' (run path lib text scope)) :
    SettlesWith D w E (D.Carries w) m (loadBy run lib span) := by
  unfold loadBy
  refine Keeps.bind_get fun _ => Keeps.bind_get fun _ => ?_
  split
  · exact SettlesWith.raise hspan
  · refine Keeps.bind_get fun _ => ?_
    split
    · exact SettlesWith.raise hspan
    · next text _ =>
      intro hs
      obtain ⟨inner, hsound, hruns, hback⟩ := D.load himports hs
      let made := m.store.newRoot
      let started : Machine := { m with store := made.2 }
      let module := run (m.workspace.resolveLib lib) lib text made.1
      have hmodule : Finishes D inner made.1 (fun _ _ => True) started module := hrun _ _ (hruns _)
      obtain ⟨hlater, hends⟩ := hmodule hsound
      -- back in the importing run, whether the module has come to its end or not
      obtain ⟨hsound', hgrows, hbindings⟩ := hback _ hlater.sound hlater.grows
      have hlater' : D.Later w E m (module.run started).2 :=
        ⟨hsound', hgrows E, hlater.place.of_store⟩
      rw [Step.run_bind_ok (show (Eval.newRoot).run m = (.ok made.1, started) from rfl)]
      rcases hrun : module.run started with ⟨signal | outcome, after⟩
      · rw [Step.run_bind_error hrun]
        rw [hrun] at hlater' hends
        obtain rfl : signal = .exhausted := hends
        exact ⟨hlater', trivial⟩
      · rw [Step.run_bind_ok hrun]
        rw [hrun] at hlater' hbindings
        have hcollect := collect_settles (E := E) (m.workspace.resolveLib lib) hspan outcome
          hbindings hlater'.sound
        exact ⟨hlater'.trans hcollect.1, hcollect.2⟩

theorem load_settles (hv : D.Visits visit) {lib : String} {span : Span} (hspan : D.Points w span)
    (hmakes : ∀ scope source, D.Makes w scope (.module source)) (himports : D.Imports w) :
    SettlesWith D w E (D.Carries w) m (load visit lib span) :=
  loadBy_settles hspan himports fun _ _ h =>
    runModule_finishes hv fun root => h root (hmakes _ _)

theorem importBy_keeps (hv : D.Visits visit) {load : String → Span → Eval Value} {lib : Node}
    {name : Ident} {span : Span} (hspan : D.Points w span) (h : D.Runs w m.store E lib)
    (hload : ∀ {m' : Machine} (lib : String),
      SettlesWith D w E (D.Carries w) m' (load lib span)) :
    D.Evaluates w E (D.Carries w) m (importBy visit load E lib name span) := by
  refine (hv h).bind fun v m₁ hlater₁ _ => ?_
  split
  · next lib _ =>
    refine (hload lib).evaluates.bind fun exported m₂ hlater₂ hexported => ?_
    refine (Evaluates.bindName ((hlater₁.trans hlater₂).runs h) hexported
      (D.shows_private w)).bind fun _ m₃ _ _ => ?_
    exact Evaluates.pure Value.within_null
  · exact Evaluates.raise hspan

/-! ## Signals -/

theorem returnValue_keeps (hv : D.Visits visit) {value : Option Node}
    (h : ∀ node, value = some node → D.Runs w m.store E node) :
    D.Evaluates w E (D.Carries w) m (returnValue visit E value) := by
  unfold returnValue
  split
  · next node => exact (hv (h node rfl)).bind fun v m' _ hcarries => Keeps.throw hcarries
  · exact Keeps.throw Value.within_null

/-- `break` and `continue` check for a loop around them before they are raised. -/
theorem leaveIteration_keeps {keyword : Keyword} {signal : Signal} {span : Span}
    (hspan : D.Points w span) (h : signal = .broke ∨ signal = .continued) :
    D.Evaluates w E (D.Carries w) m (leaveIteration keyword signal span) := by
  refine Evaluates.bind_get fun _ => ?_
  split
  · exact Evaluates.raise hspan
  · next hdepth =>
    refine Keeps.throw ?_
    rcases h with rfl | rfl
    · exact Nat.pos_of_ne_zero hdepth
    · exact Nat.pos_of_ne_zero hdepth

end Construct

namespace Node

/-- One node of any sort.  Each case hands on that the parts of the node run in its scope. -/
theorem evalFormBy_keeps (hv : D.Visits visit)
    {invoke : Callable → List Value → Span → Eval Value} {load : String → Span → Eval Value}
    {bound : Nat} {node : Node} (h : D.Runs w m.store E node)
    (hinvoke : ∀ {m' : Machine} {f : Callable} {values : List Value},
      D.Carries w m'.store (.callable f) → (∀ v ∈ values, D.Carries w m'.store v) →
      Construct.SettlesWith D w E (D.Carries w) m' (invoke f values node.span))
    (hload : D.Imports w → ∀ {m' : Machine} (lib : String),
      Construct.SettlesWith D w E (D.Carries w) m' (load lib node.span)) :
    D.Evaluates w E (D.Carries w) m (evalFormBy bound visit invoke load E node) := by
  have hspan : D.Points w node.span := D.points_node h
  have hpart : ∀ {part : Node}, part ∈ node.form.parts → D.Runs w m.store E part :=
    fun hmem => D.runs_part h hmem
  have hname : ∀ {name : Ident}, name ∈ node.form.lookups → D.Points w name.span :=
    fun hmem => D.points_lookup h hmem
  obtain ⟨form, span⟩ := node
  cases form with
  | number | text | boolean | null => exact Evaluates.pure (Value.within_of_ref?_eq_none rfl)
  | list items => exact Construct.list_keeps hv fun _ => hpart
  | object entries => exact Construct.object_keeps hv fun _ => hpart
  | access name =>
    refine (Evaluates.lookup (hname List.mem_cons_self) h).bind fun _ _ _ hbinding => ?_
    exact Evaluates.pure hbinding.1
  | member target name =>
    exact Construct.member_keeps hv (hname List.mem_cons_self) (hpart List.mem_cons_self)
  | assign name op value declares isPublic =>
    have hvalue := hpart List.mem_cons_self
    cases declares with
    | true => exact Construct.declare_keeps hv (D.shows_declared h rfl) hvalue
    | false => exact Construct.update_keeps hv (hname List.mem_cons_self) hvalue
  | memberAssign path op value =>
    exact Construct.memberAssign_keeps hv (fun _ => hname) (hpart List.mem_cons_self)
  | binary lhs op rhs =>
    exact Construct.binary_keeps hv (hpart (by simp [Form.parts])) (hpart (by simp [Form.parts]))
  | unary op operand => exact Construct.unary_keeps hv (hpart List.mem_cons_self)
  | ifElse arms otherwise =>
    refine Construct.conditional_keeps hv arms (fun arm harm => ?_) fun body hbody => hpart ?_
    · exact (Form.mem_parts_of_arm harm).imp hpart hpart
    · simp [Form.parts, hbody]
  | switch subject cases otherwise =>
    refine (hv (hpart List.mem_cons_self)).bind fun v m' hlater _ => ?_
    have hlater_part : ∀ {part : Node}, part ∈ (Form.switch subject cases otherwise).parts →
        D.Runs w m'.store E part := fun hmem => hlater.runs (hpart hmem)
    refine Construct.switchCases_keeps hv cases (fun entry hentry => ?_)
      fun body hbody => hlater_part ?_
    · exact (Form.mem_parts_of_case hentry).imp hlater_part hlater_part
    · simp [Form.parts, hbody]
  | forCount name first last step body =>
    exact Construct.forCount_keeps hv (hpart (by simp [Form.parts]))
      (hpart (by simp [Form.parts])) (fun node hnode => hpart (by simp [Form.parts, hnode]))
      (hpart (by simp [Form.parts]))
  | forList name list body =>
    exact Construct.forList_keeps hv (hpart (by simp [Form.parts])) (hpart (by simp [Form.parts]))
  | forObject key value object body =>
    exact Construct.forObject_keeps hv (hpart (by simp [Form.parts]))
      (hpart (by simp [Form.parts]))
  | whileLoop condition body =>
    exact Construct.whileLoop_keeps hv (hpart (by simp [Form.parts]))
      (hpart (by simp [Form.parts]))
  | function definition => exact Construct.function_keeps h rfl
  | call callee args =>
    exact Construct.callBy_keeps hv (hpart List.mem_cons_self)
      (fun node hnode => hpart (List.mem_cons_of_mem _ hnode)) hinvoke
  | importAs lib name =>
    exact Construct.importBy_keeps hv hspan (hpart List.mem_cons_self)
      (hload (D.imports_of_runs h rfl))
  | returnValue value =>
    exact Construct.returnValue_keeps hv fun node hnode => hpart (by simp [Form.parts, hnode])
  | breakLoop => exact Construct.leaveIteration_keeps hspan (.inl rfl)
  | continueLoop => exact Construct.leaveIteration_keeps hspan (.inr rfl)
  | block statements => exact Construct.list_keeps hv fun _ => hpart

end Node

/-- The discipline does not care what scopes are used for. -/
def Discipline.Open (D : Discipline W) : Prop :=
  ∀ w scope origin, D.Makes w scope origin

namespace Node

theorem evalForm_keeps (hopen : D.Open) (hv : D.Visits visit) {bound : Nat} {node : Node}
    (h : D.Runs w m.store E node) :
    D.Evaluates w E (D.Carries w) m (evalForm bound visit E node) := by
  have hspan : D.Points w node.span := D.points_node h
  rw [evalForm_eq]
  exact evalFormBy_keeps hv h (Construct.invoke_settles hv (fun _ => hopen _ _ _) hspan)
    fun himports _ _ => Construct.load_settles hv hspan (fun _ _ => hopen _ _ _) himports

/-- **Evaluation keeps every discipline.**  The bound is the only thing the induction is on: a call
or an import evaluates nodes that are no part of the caller, but with less of the bound. -/
theorem evalWithin_keeps (D : Discipline W) (hopen : D.Open) :
    ∀ bound : Nat, D.Visits (evalWithin bound)
  | 0, _, _, _, _, _ => Evaluates.throw_exhausted
  | bound + 1, _, _, _, _, h => evalForm_keeps hopen (evalWithin_keeps D hopen bound) h

end Node

end BpScript
