import BpScript.Proofs.Code
import BpScript.Proofs.Isolation

/-!
# Nothing is exported by accident

Whether a name is exported is noted in two places: with its binding, and in the definition of a
function, which then counts whatever name the function goes by.  An update takes the note of the
binding it finds, which may be any scope further out.  A module that declares nothing public
exports nothing all the same, since it never gets hold of anything public: it is fenced off
(`BpScript.Proofs.Isolation`), and behind the fence all notes say private.

* `Form.isPrivate`, `Node.IsPrivate` — code that declares nothing public, and imports nothing.
* `Store.Secluded` — behind the fence, names are bound privately and functions are private.
* `Discipline.seclusion` — every elementary change keeps it.
* **`load_exports_nothing`** — imports of modules whose code is private.
-/

namespace BpScript

/-! ## Private code -/

/-- Neither a public declaration nor an import. -/
def Form.isPrivate : Form → Bool
  | .assign _ _ _ _ isPublic => !isPublic
  | .function definition => !definition.isPublic
  | .importAs _ _ => false
  | _ => true

/-- The node is neither of both. -/
def Node.IsPrivate (node : Node) : Prop :=
  node.form.isPrivate = true

namespace Node.IsPrivate

variable {node : Node}

theorem not_importAs {lib : Node} {name : Ident} (h : node.IsPrivate) :
    node.form ≠ .importAs lib name := by
  intro hform
  rw [IsPrivate, hform] at h
  cases h

theorem assign {name : Ident} {op : AssignOp} {value : Node} {declares isPublic : Bool}
    (h : node.IsPrivate) (hform : node.form = .assign name op value declares isPublic) :
    isPublic = false := by
  rw [IsPrivate, hform] at h
  simpa [Form.isPrivate] using h

theorem function {definition : Function} (h : node.IsPrivate)
    (hform : node.form = .function definition) : definition.isPublic = false := by
  rw [IsPrivate, hform] at h
  simpa [Form.isPrivate] using h

end Node.IsPrivate

/-- What is referred to is no public function, and a call of it runs private code only. -/
def Ref.IsPrivate : Ref → Prop
  | .closure c => c.definition.isPublic = false ∧ c.definition.body.All Node.IsPrivate
  | _ => True

namespace Store

/-- All that the cell holds is private, and a scope has bound it as private. -/
def PrivateCell (s : Store) : Handle → Prop
  | .list l => ∀ v ∈ s.items l, v.Within Ref.IsPrivate
  | .object o => ∀ entry ∈ s.entries o, entry.2.Within Ref.IsPrivate
  | .scope id => ∀ entry ∈ s.bindings id,
    entry.2.value.Within Ref.IsPrivate ∧ entry.2.isPublic = false

theorem SameCell.privateCell_iff {s s' : Store} : ∀ {h : Handle}, SameCell s s' h →
    (s'.PrivateCell h ↔ s.PrivateCell h)
  | .list id, hsame => by
    have hitems : s'.items id = s.items id := congrArg (Option.getD · #[]) hsame
    rw [PrivateCell, PrivateCell, hitems]
  | .object id, hsame => by
    have hentries : s'.entries id = s.entries id := congrArg (Option.getD · []) hsame
    rw [PrivateCell, PrivateCell, hentries]
  | .scope id, hsame => by
    rw [PrivateCell, PrivateCell, bindings_eq_of_get?_eq hsame]

/-- New cells lead to new cells, and hold what is private. -/
structure Secluded (base s : Store) : Prop where
  fenced : Fenced base s
  cells : ∀ h, Fresh base s h → s.PrivateCell h

variable {base s s' : Store}

theorem Secluded.alloc (hs : Secluded base s) {new : Handle} (halloc : Allocates s new s')
    (hfenced : Fenced base s') (hnew : s'.PrivateCell new) : Secluded base s' := by
  refine ⟨hfenced, fun h hh => ?_⟩
  rcases (halloc.holds_iff h).1 hh.2 with hold | rfl
  · exact (halloc.same h hold).privateCell_iff.2 (hs.cells h ⟨hh.1, hold⟩)
  · exact hnew

theorem Secluded.write (hs : Secluded base s) {changed : Handle} (hwrite : Writes s changed s')
    (hfenced : Fenced base s') (hchanged : s'.PrivateCell changed) : Secluded base s' := by
  refine ⟨hfenced, fun h hh => ?_⟩
  by_cases heq : h = changed
  · rwa [heq]
  · exact (hwrite.same h heq).privateCell_iff.2
      (hs.cells h ⟨hh.1, (hwrite.holds_iff h).1 hh.2⟩)

/-- A root scope has bound nothing but built-in functions and `math`, all of them as private. -/
theorem privateCell_newRoot (s : Store) : s.newRoot.2.PrivateCell (.scope s.newRoot.1) := by
  intro entry hentry
  rw [newRoot, bindings_newScope] at hentry
  rcases List.mem_append.1 hentry with hentry | hentry
  · obtain ⟨g, -, rfl⟩ := List.mem_map.1 hentry
    exact ⟨Value.within_of_ref?_eq_none rfl, rfl⟩
  · rw [List.mem_singleton.1 hentry]
    exact ⟨Value.within_object.2 trivial, rfl⟩

/-- The constants of `math` are plain. -/
theorem within_of_mem_mathConstants {P : Ref → Prop} {entry : String × Value}
    (h : entry ∈ mathConstants) : entry.2.Within P := by
  simp only [mathConstants, List.mem_cons, List.not_mem_nil, or_false] at h
  rcases h with rfl | rfl | rfl <;> exact Value.within_of_ref?_eq_none rfl

/-- A module starts out secluded. -/
theorem secluded_newRoot (s : Store) : Secluded s s.newRoot.2 := by
  have hself : Secluded s s := ⟨.self s, fun h hh => absurd hh.2 hh.1⟩
  obtain ⟨hfenced, -, -⟩ := (Fenced.self s).alloc (allocates_newObject mathConstants)
    fun h hleads => by
      obtain ⟨entry, hentry, hh⟩ := leads_newObject hleads
      rw [handle?_of_mem_mathConstants hentry] at hh
      cases hh
  have hmath : Secluded s (s.newObject mathConstants).2 := by
    refine hself.alloc (allocates_newObject _) hfenced fun entry hentry => ?_
    rw [entries_newObject] at hentry
    exact within_of_mem_mathConstants hentry
  exact hmath.alloc (allocates_newScope _) (Fenced.self s).newRoot.1 (privateCell_newRoot s)

end Store

open Store

theorem Value.Within.and {P Q : Ref → Prop} {v : Value} (hp : v.Within P) (hq : v.Within Q) :
    v.Within fun r => P r ∧ Q r :=
  fun r hr => ⟨hp r hr, hq r hr⟩

/-- Values that may be carried refer to new cells, and to nothing public. -/
theorem Value.Within.fresh {base s : Store} {v : Value}
    (hv : v.Within fun r => Fresh base s r.handle ∧ r.IsPrivate) :
    v.Within fun r => Fresh base s r.handle :=
  hv.mono fun _ h => h.1

theorem Value.Within.isPrivate {base s : Store} {v : Value}
    (hv : v.Within fun r => Fresh base s r.handle ∧ r.IsPrivate) : v.Within Ref.IsPrivate :=
  hv.mono fun _ h => h.2

/-- The fence of isolation, and privacy behind it. -/
def Discipline.seclusion : Discipline Store where
  Sound base s := Secluded base s
  Refers base s r := Fresh base s r.handle ∧ r.IsPrivate
  Runs base s E node := Fresh base s (.scope E) ∧ node.All Node.IsPrivate
  Imports _ := False
  Grows base _ s s' := Spares base s s'
  Shows _ isPublic := isPublic = false
  grows_refl base _ s := .refl base s
  grows_trans := .trans
  refers_mono hspares hr := ⟨hr.1.mono hspares, hr.2⟩
  runs_mono hspares h := ⟨h.1.mono hspares, h.2⟩
  runs_part h hpart := ⟨h.1, h.2.of_mem_contents (Form.mem_contents_of_mem_parts hpart)⟩
  imports_of_runs h hform := absurd hform h.2.self.not_importAs
  refers_closure {_ _ _ _ definition} h hform :=
    ⟨h.1, h.2.self.function hform, h.2.of_mem_contents (hform ▸ Form.body_mem_contents definition)⟩
  items_within hs hl hv :=
    (isolation.items_within (w := _) hs.fenced hl.1 hv).and (hs.cells _ hl.1 _ hv)
  entries_within hs ho hentry :=
    (isolation.entries_within hs.fenced ho.1 hentry).and (hs.cells _ ho.1 _ hentry)
  lookup_within hs h hlookup := by
    obtain ⟨scope, hscope, hmem⟩ := hs.fenced.exists_of_lookupWithin _ h.1 hlookup
    refine (Value.within_handle_iff.2 fun target hh => ?_).and (hs.cells _ hscope _ hmem).1
    exact hs.fenced.lookupWithin h.1 hlookup target hh
  shows_private _ := rfl
  shows_declared h hform := h.2.self.assign hform
  shows_function h hform := h.2.self.function hform
  shows_lookup hs h hlookup := by
    obtain ⟨scope, hscope, hmem⟩ := hs.fenced.exists_of_lookupWithin _ h.1 hlookup
    exact (hs.cells _ hscope _ hmem).2
  newList E hs hitems := by
    obtain ⟨hfenced, hspares, hnew⟩ :=
      isolation.newList E hs.fenced fun v hv => (hitems v hv).fresh
    refine ⟨hs.alloc (allocates_newList _) hfenced fun v hv => ?_, hspares, hnew, trivial⟩
    rw [items_newList] at hv
    exact (hitems v hv).isPrivate
  newObject E hs hkeys hentries := by
    obtain ⟨hfenced, hspares, hnew⟩ :=
      isolation.newObject E hs.fenced hkeys fun entry hentry => (hentries entry hentry).fresh
    refine ⟨hs.alloc (allocates_newObject _) hfenced fun entry hentry => ?_, hspares, hnew, trivial⟩
    rw [entries_newObject] at hentry
    exact (hentries entry hentry).isPrivate
  bind {base s E node _ _} hs h hbinding hshow := by
    have hruns : isolation.Runs base s E node := h.1
    obtain ⟨hfenced, hspares⟩ := isolation.bind hs.fenced hruns hbinding.fresh trivial
    refine ⟨hs.write (writes_bind _ _ _) hfenced fun entry hentry => ?_, hspares⟩
    rw [bindings_bind h.1.2] at hentry
    rcases Table.mem_of_mem_set hentry with rfl | hentry
    · exact ⟨hbinding.isPrivate, hshow⟩
    · exact hs.cells _ h.1 entry hentry
  modifyItems E hs hl hitems := by
    obtain ⟨hfenced, hspares⟩ :=
      isolation.modifyItems E hs.fenced hl.1 fun v hv => (hitems v hv).fresh
    refine ⟨hs.write (writes_modifyItems _ _) hfenced fun v hv => ?_, hspares⟩
    rw [items_modifyItems hl.1.2] at hv
    exact (hitems v hv).isPrivate
  modifyEntries E hs ho hkeys hentries := by
    obtain ⟨hfenced, hspares⟩ :=
      isolation.modifyEntries E hs.fenced ho.1 hkeys
        fun entry hentry => (hentries entry hentry).fresh
    refine ⟨hs.write (writes_modifyEntries _ _) hfenced fun entry hentry => ?_, hspares⟩
    rw [entries_modifyEntries ho.1.2] at hentry
    exact (hentries entry hentry).isPrivate
  call hs hc hbindings hprivate _ := by
    obtain ⟨hfenced, hspares, hmade⟩ :=
      hs.fenced.newScope hc.1 fun entry hentry => (hbindings entry hentry).fresh
    refine ⟨hs.alloc (allocates_newScope _) hfenced fun entry hentry => ?_, ⟨hmade, hc.2.2⟩,
      fun _ _ hspares' => hspares.trans hspares'⟩
    rw [bindings_newScope] at hentry
    exact ⟨(hbindings entry hentry).isPrivate, hprivate entry hentry⟩
  load himports := himports.elim

/-! ## Imports -/

/-- Of what is private, nothing is exported. -/
theorem Store.publicSymbols_eq_nil {s : Store} {scope : ScopeId}
    (h : s.PrivateCell (.scope scope)) :
    s.publicSymbols scope = [] := by
  have hnone : ∀ entry ∈ s.bindings scope, ¬Binding.isExported entry.2 = true := by
    intro entry hentry
    obtain ⟨hvalue, hbinding⟩ := h entry hentry
    rw [Binding.isExported]
    split
    · next c hc =>
      rw [hc] at hvalue
      exact Bool.eq_false_iff.1 (Value.within_closure.1 hvalue).1
    · exact Bool.eq_false_iff.1 hbinding
  rw [publicSymbols, List.filter_eq_nil_iff.2 hnone, List.map_nil, List.mergeSort_nil]

/-- A module whose code is private leaves a root scope behind in which all is private. -/
theorem runModule_secluded (bound : Nat) (path : String) {lib text : String}
    (hcode : ∀ root, Node.ofSource ⟨lib, text⟩ = .ok root → root.All Node.IsPrivate) (m : Machine) :
    let started : Machine := { m with store := m.store.newRoot.2 }
    let r :=
      (Construct.runModule (Node.evalWithin bound) path lib text m.store.newRoot.1).run started
    r.2.store.PrivateCell (.scope m.store.newRoot.1) := by
  intro started r
  have hroot : Fresh m.store started.store (.scope m.store.newRoot.1) :=
    (Fenced.self m.store).newRoot.2.2
  have hv : Discipline.seclusion.Visits (Node.evalWithin bound) :=
    Node.evalWithin_keeps _ (fun _ _ _ => trivial) bound
  have hruns : ∀ root, Node.ofSource ⟨lib, text⟩ = .ok root →
      Discipline.seclusion.Runs m.store started.store m.store.newRoot.1 root :=
    fun root hsource => ⟨hroot, hcode root hsource⟩
  have hfinishes : Construct.Finishes Discipline.seclusion m.store m.store.newRoot.1
      (fun _ _ => True) started
      (Construct.runModule (Node.evalWithin bound) path lib text m.store.newRoot.1) :=
    Construct.runModule_finishes hv hruns
  obtain ⟨hlater, -⟩ := hfinishes (secluded_newRoot m.store)
  exact hlater.sound.cells _ (hroot.mono hlater.grows)

/-- What an import has done when it ends with a value: the module came to its end, and what its
root scope exports became an object. -/
theorem Construct.load_ok {visit : Visit} {lib : String} {span : Span} {m after : Machine}
    {v : Value}
    (hrun : (load visit lib span).run m = (.ok v, after)) :
    ∃ text, m.workspace.read (m.workspace.resolveLib lib) = .ok text ∧
      let made := m.store.newRoot
      let done := ((runModule visit (m.workspace.resolveLib lib) lib text made.1).run
        { m with store := made.2 }).2.store
      let exported := done.newObject (Table.ofEntries (done.publicSymbols made.1))
      v = .object exported.1 ∧ after.store = exported.2 := by
  unfold load at hrun
  rw [Step.run_bind_ok (Step.run_get m), Step.run_bind_ok (Step.run_get m)] at hrun
  split at hrun
  · cases hrun
  · rw [Step.run_bind_ok (Step.run_get m)] at hrun
    split at hrun
    · cases hrun
    · next text hread =>
      refine ⟨text, hread, ?_⟩
      intro made done exported
      have hroot : Eval.newRoot.run m = (.ok made.1, { m with store := made.2 }) := rfl
      rw [Step.run_bind_ok hroot, Step.run_bind] at hrun
      rcases hmodule : (runModule visit (m.workspace.resolveLib lib) lib text made.1).run
        { m with store := made.2 } with ⟨_ | _ | value, m'⟩
      · rw [hmodule] at hrun
        cases hrun
      · rw [hmodule] at hrun
        cases hrun
      · rw [hmodule] at hrun
        have hdone : done = m'.store := congrArg (fun r => r.2.store) hmodule
        cases hrun
        simp only [exported, hdone]
        exact ⟨rfl, rfl⟩

/-- **Nothing is exported by accident.**  If the tree of a module has, at any depth, no public
declaration and no import, then importing the module, if that ends with a value, gives an object
without entries.  It does not matter what else the code does: update names, run loops, hand
functions and built-in functions around under other names, nest them, or return early. -/
theorem load_exports_nothing (bound : Nat) {lib text : String} {span : Span} {m after : Machine}
    {v : Value} (hread : m.workspace.read (m.workspace.resolveLib lib) = .ok text)
    (hcode : ∀ root, Node.ofSource ⟨lib, text⟩ = .ok root → root.All Node.IsPrivate)
    (hrun : (Construct.load (Node.evalWithin bound) lib span).run m = (.ok v, after)) :
    ∃ exports, v = .object exports ∧ after.store.entries exports = [] := by
  obtain ⟨text', hread', hv, hafter⟩ := Construct.load_ok hrun
  obtain rfl : text = text' := Except.ok.inj (hread.symm.trans hread')
  refine ⟨_, hv, ?_⟩
  have hprivate := runModule_secluded bound (m.workspace.resolveLib lib) hcode m
  rw [hafter, entries_newObject, publicSymbols_eq_nil hprivate]
  rfl

/-- A library that binds a built-in function, updates a name from inside a function, makes closures
the values of loop variables and returns early. -/
theorem private_library_exports_nothing :
    let text := "let out = print\nfunc f(x)\nout = x\nfunc g() => out\nreturn g\nend\n" ++
      "out = f(f)\nfor h of [out] then out = h()\nreturn out"
    let path := Path.components (Workspace.memory.resolveLib "lib")
    let files : Workspace := { Workspace.memory with storage := .memory [(path, text)] }
    let m := (Session.start default files).machine
    let r := (Construct.load (Node.evalWithin 9) "lib" default).run m
    ∃ exports, r.1 = .ok (.object exports) ∧ r.2.store.entries exports = [] := by
  intro text path files m r
  have hread : m.workspace.read (m.workspace.resolveLib "lib") = .ok text := by
    decide +kernel
  have hcode : (Node.ofSource ⟨"lib", text⟩).toOption.all (Node.allWithin (·.form.isPrivate) 20) =
      true := by
    decide +kernel
  have hok : r.1.toOption.isSome = true := by decide +kernel
  rcases hrun : r with ⟨_ | v, after⟩
  · rw [hrun] at hok
    cases hok
  · have hprivate : ∀ root, Node.ofSource ⟨"lib", text⟩ = .ok root → root.All Node.IsPrivate := by
      intro root hroot
      rw [hroot] at hcode
      exact .of_allWithin hcode
    obtain ⟨exports, rfl, hexports⟩ := load_exports_nothing 9 hread hprivate hrun
    exact ⟨exports, rfl, hexports⟩

end BpScript
