import Mathlib
import BpScript.Tree.Parser

/-!
# Reading the same with two parsers

Two parsers that differ only in the rules they nest are compared step by step, from one cursor on.
They read the same tree or report the same error, except that the first one may be **stuck** where
the second one has already failed: it has gone back in front of a statement, and the error of that
statement is waiting to be reported.

* `Cursor.Ready` — nothing is waiting, and the tokens end in `eof`.
* `Cursor.Upto`, `Cursor.Past` — a cursor that is ready again, not in front of another one or
  behind it.  The number of upcoming tokens is what bounds nesting and repetition.
* `Parse.Agree` — the comparison.  It leaves no room for a lack of a bound.
* `Agree.bind`, `Agree.bind_peekKind`, `Agree.ifAccept`, … — sequences.
-/

namespace BpScript

/-! ## Cursors -/

namespace Cursor

/-- The tokens from here on end in `eof`. -/
def EndsInEof (c : Cursor) : Prop :=
  ((c.current :: c.upcoming).getLast (List.cons_ne_nil _ _)).kind = .eof

/-- No error is waiting, and the tokens end in `eof`. -/
structure Ready (c : Cursor) : Prop where
  deferred : c.deferred = none
  ends : c.EndsInEof

/-- `c'` is ready, and not in front of `c`. -/
structure Upto (c c' : Cursor) : Prop where
  ready : c'.Ready
  le : c'.upcoming.length ≤ c.upcoming.length

/-- `c'` is ready, and behind `c`. -/
structure Past (c c' : Cursor) : Prop where
  ready : c'.Ready
  lt : c'.upcoming.length < c.upcoming.length

variable {a b c : Cursor}

theorem Ready.upto (h : c.Ready) : c.Upto c := ⟨h, Nat.le_refl _⟩

theorem Upto.trans (hab : a.Upto b) (hbc : b.Upto c) : a.Upto c :=
  ⟨hbc.ready, Nat.le_trans hbc.le hab.le⟩

theorem Past.upto (h : a.Past b) : a.Upto b := ⟨h.ready, Nat.le_of_lt h.lt⟩

theorem Past.trans_upto (hab : a.Past b) (hbc : b.Upto c) : a.Past c :=
  ⟨hbc.ready, Nat.lt_of_le_of_lt hbc.le hab.lt⟩

theorem Upto.trans_past (hab : a.Upto b) (hbc : b.Past c) : a.Past c :=
  ⟨hbc.ready, Nat.lt_of_lt_of_le hbc.lt hab.le⟩

theorem Past.trans (hab : a.Past b) (hbc : b.Past c) : a.Past c :=
  hab.trans_upto hbc.upto

theorem EndsInEof.advance (h : c.EndsInEof) : c.advance.EndsInEof := by
  rcases c with ⟨index, current, _ | ⟨next, rest⟩, lastStop, deferred⟩
  · exact h
  · exact h

/-- A token that is not `eof` is not the last one, so there is something behind it. -/
theorem EndsInEof.upcoming_ne_nil (h : c.EndsInEof) (hne : c.current.kind ≠ .eof) :
    c.upcoming ≠ [] := by
  rcases c with ⟨index, current, _ | ⟨next, rest⟩, lastStop, deferred⟩
  · exact absurd h hne
  · exact List.cons_ne_nil next rest

theorem advance_lt (h : c.upcoming ≠ []) : c.advance.upcoming.length < c.upcoming.length := by
  rcases c with ⟨index, current, _ | ⟨next, rest⟩, lastStop, deferred⟩
  · exact absurd rfl h
  · exact Nat.lt_succ_self _

theorem deferred_advance (c : Cursor) : c.advance.deferred = c.deferred := by
  rcases c with ⟨index, current, _ | ⟨next, rest⟩, lastStop, deferred⟩ <;> rfl

theorem Ready.past_advance (h : c.Ready) (hne : c.current.kind ≠ .eof) : c.Past c.advance :=
  ⟨⟨c.deferred_advance.trans h.deferred, h.ends.advance⟩,
    advance_lt (h.ends.upcoming_ne_nil hne)⟩

/-! Newlines are skipped one after the other. -/

theorem newlines_eq_zero (h : c.current.kind ≠ .newline) : c.newlines = 0 := by
  simp [newlines, h]

theorem newlines_of_newline (h : c.current.kind = .newline) (hne : c.upcoming ≠ []) :
    c.newlines = c.advance.newlines + 1 := by
  rcases c with ⟨index, current, _ | ⟨next, rest⟩, lastStop, deferred⟩
  · exact absurd rfl hne
  · have hkind : current.kind = .newline := h
    simp [newlines, Cursor.advance, hkind]

/-- What is left when the newlines are skipped. -/
def behindNewlines (c : Cursor) : Cursor :=
  c.advanceBy c.newlines

theorem behindNewlines_of_ne (h : c.current.kind ≠ .newline) : c.behindNewlines = c := by
  rw [behindNewlines, newlines_eq_zero h]
  rfl

theorem behindNewlines_of_newline (h : c.current.kind = .newline) (hne : c.upcoming ≠ []) :
    c.behindNewlines = c.advance.behindNewlines := by
  rw [behindNewlines, newlines_of_newline h hne]
  rfl

/-- **The walk over newlines.**  A cursor is in front of no newline, of one with nothing behind it,
or of one that the walk goes on behind. -/
@[elab_as_elim]
theorem newlineInduction {P : Cursor → Prop} (other : ∀ c, c.current.kind ≠ .newline → P c)
    (last : ∀ c, c.current.kind = .newline → c.upcoming = [] → P c)
    (newline : ∀ c, c.current.kind = .newline → c.upcoming ≠ [] → P c.advance → P c)
    (c : Cursor) : P c := by
  by_cases hkind : c.current.kind = .newline
  · by_cases hnil : c.upcoming = []
    · exact last c hkind hnil
    · exact newline c hkind hnil (newlineInduction other last newline c.advance)
  · exact other c hkind
termination_by c.upcoming.length
decreasing_by exact advance_lt hnil

/-- Behind the newlines there is none, and if there was one, the cursor has moved. -/
theorem behindNewlines_spec (h : c.EndsInEof) :
    c.behindNewlines.EndsInEof ∧ c.behindNewlines.deferred = c.deferred ∧
      c.behindNewlines.current.kind ≠ .newline ∧
      c.behindNewlines.upcoming.length + c.newlines ≤ c.upcoming.length := by
  induction c using newlineInduction with
  | other c hkind =>
    rw [behindNewlines_of_ne hkind, newlines_eq_zero hkind]
    exact ⟨h, rfl, hkind, Nat.le_refl _⟩
  | last c hkind hnil => exact absurd hnil (h.upcoming_ne_nil (hkind.trans_ne (by decide)))
  | newline c hkind hne ih =>
    obtain ⟨hends, hdeferred, hnewline, hle⟩ := ih h.advance
    have hlt := advance_lt hne
    rw [behindNewlines_of_newline hkind hne, newlines_of_newline hkind hne]
    exact ⟨hends, hdeferred.trans c.deferred_advance, hnewline, by omega⟩

theorem Ready.upto_behindNewlines (h : c.Ready) : c.Upto c.behindNewlines := by
  obtain ⟨hends, hdeferred, -, hle⟩ := behindNewlines_spec h.ends
  exact ⟨⟨hdeferred.trans h.deferred, hends⟩, by omega⟩

theorem Ready.past_behindNewlines (h : c.Ready) (hne : c.newlines ≠ 0) :
    c.Past c.behindNewlines := by
  obtain ⟨-, -, -, hle⟩ := behindNewlines_spec h.ends
  exact ⟨h.upto_behindNewlines.ready, by omega⟩

end Cursor

/-! ## The comparison -/

namespace Parse

variable {α β : Type} {c : Cursor}

theorem run_bind_ok {p : Parse α} {k : α → Parse β} {a : α} {c' : Cursor}
    (h : p c = .ok (a, c')) : (p >>= k) c = k a c' := by
  show (p c).bind (fun r => k r.1 r.2) = _
  rw [h]
  rfl

theorem run_bind_error {p : Parse α} {k : α → Parse β} {failure : ParseFailure}
    (h : p c = .error failure) : (p >>= k) c = .error failure := by
  show (p c).bind (fun r => k r.1 r.2) = _
  rw [h]
  rfl

theorem run_discard_error {p : Parse α} {failure : ParseFailure} (h : p c = .error failure) :
    (discard p) c = .error failure := by
  rw [Functor.discard, LawfulFunctor.map_const, Function.comp, map_eq_pure_bind]
  exact run_bind_error h

theorem accept_of_eq {kind : TokenKind} (h : c.current.kind = kind) :
    accept kind c = .ok (true, c.advance) := by
  show (if c.current.kind = kind then discard advance >>= fun _ => pure true else pure false :
    Parse Bool) c = _
  rw [if_pos h]
  rfl

theorem accept_of_ne {kind : TokenKind} (h : c.current.kind ≠ kind) :
    accept kind c = .ok (false, c) := by
  show (if c.current.kind = kind then discard advance >>= fun _ => pure true else pure false :
    Parse Bool) c = _
  rw [if_neg h]
  rfl

/-- Read from `c`, both steps end in the same way: with a value and a cursor that satisfy `T`, or
with an error.  Where only the second one reports an error `e`, the first one has moved to a cursor
that satisfies `S e`. -/
inductive Agree (T : α → Cursor → Prop) (S : Diagnostic → Cursor → Prop) (c : Cursor)
    (p q : Parse α) : Prop where
  | read {a : α} {c' : Cursor} (hp : p c = .ok (a, c')) (hq : q c = .ok (a, c'))
    (h : T a c')
  | failed {e : Diagnostic} (hp : p c = .error (.report e)) (hq : q c = .error (.report e))
  | stuck {e : Diagnostic} {a : α} {c' : Cursor} (hp : p c = .ok (a, c'))
    (hq : q c = .error (.report e)) (h : S e c')

/-- Both steps end in the same way. -/
abbrev Same (T : α → Cursor → Prop) (c : Cursor) (p q : Parse α) : Prop :=
  Agree T (fun _ _ => False) c p q

/-- Read from `c`, the step reports `e` or stays stuck with it. -/
def Stalls (S : Diagnostic → Cursor → Prop) (e : Diagnostic) (c : Cursor) (p : Parse α) : Prop :=
  p c = .error (.report e) ∨ ∃ a c', p c = .ok (a, c') ∧ S e c'

variable {T U : α → Cursor → Prop} {V : β → Cursor → Prop} {S R : Diagnostic → Cursor → Prop}
  {p q : Parse α} {k l : α → Parse β}

theorem Stalls.bind_ok {e : Diagnostic} {a : α} {c' : Cursor} (h : p c = .ok (a, c'))
    (hk : Stalls R e c' (k a)) : Stalls R e c (p >>= k) := by
  rw [Stalls, run_bind_ok h]
  exact hk

theorem Stalls.bind_error {e : Diagnostic} (h : p c = .error (.report e)) :
    Stalls R e c (p >>= k) :=
  .inl (run_bind_error h)

namespace Agree

theorem of_run {a : α} {c' : Cursor} (hp : p c = .ok (a, c')) (h : T a c') :
    Agree T S c p p :=
  .read hp hp h

theorem pure {a : α} (h : T a c) : Agree T S c (pure a) (pure a) :=
  of_run rfl h

theorem fail {e : Diagnostic} : Agree T S c (Parse.fail e) (Parse.fail e) :=
  .failed rfl rfl

theorem failHere {fault : SyntaxFault} :
    Agree T S c (Parse.failHere fault) (Parse.failHere fault) :=
  .failed rfl rfl

theorem failExpecting {kinds : List TokenKind} :
    Agree T S c (Parse.failExpecting kinds) (Parse.failExpecting kinds) :=
  failHere

theorem weaken (h : Agree T S c p q) (hT : ∀ a c', T a c' → U a c') : Agree U S c p q := by
  cases h with
  | read hp hq h => exact .read hp hq (hT _ _ h)
  | failed hp hq => exact .failed hp hq
  | stuck hp hq h => exact .stuck hp hq h

theorem of_same (h : Same T c p q) : Agree T S c p q := by
  cases h with
  | read hp hq h => exact .read hp hq h
  | failed hp hq => exact .failed hp hq
  | stuck _ _ h => exact h.elim

/-- **Sequences.**  Where the first steps agree the next ones have to; where the first parser is
stuck, its next step has to report the error or stay stuck. -/
theorem bind_stuck (h : Agree T S c p q)
    (hk : ∀ a c', T a c' → Agree V R c' (k a) (l a))
    (hs : ∀ e a c', S e c' → Stalls R e c' (k a)) : Agree V R c (p >>= k) (q >>= l) := by
  cases h with
  | read hp hq h =>
    cases hk _ _ h with
    | read hp' hq' h' =>
      exact .read ((run_bind_ok hp).trans hp') ((run_bind_ok hq).trans hq') h'
    | failed hp' hq' => exact .failed ((run_bind_ok hp).trans hp') ((run_bind_ok hq).trans hq')
    | stuck hp' hq' h' =>
      exact .stuck ((run_bind_ok hp).trans hp') ((run_bind_ok hq).trans hq') h'
  | failed hp hq => exact .failed (run_bind_error hp) (run_bind_error hq)
  | stuck hp hq h =>
    rcases hs _ _ _ h with hp' | ⟨b, c'', hp', h'⟩
    · exact .failed ((run_bind_ok hp).trans hp') (run_bind_error hq)
    · exact .stuck ((run_bind_ok hp).trans hp') (run_bind_error hq) h'

theorem bind (h : Same T c p q) (hk : ∀ a c', T a c' → Agree V R c' (k a) (l a)) :
    Agree V R c (p >>= k) (q >>= l) :=
  h.bind_stuck hk fun _ _ _ => False.elim

/-- A choice between two steps whose values are used in the same way. -/
theorem bind_ite {b : Prop} [Decidable b] {x y x' y' : Parse α} (hx : b → Same T c x x')
    (hy : ¬b → Same T c y y') (hk : ∀ a c', T a c' → Agree V R c' (k a) (l a)) :
    Agree V R c (if b then x >>= k else y >>= k) (if b then x' >>= l else y' >>= l) := by
  split
  · next hb => exact (hx hb).bind hk
  · next hb => exact (hy hb).bind hk

theorem map {Q : Cursor → Prop} {f : α → β} (h : Same (fun _ => Q) c p q) :
    Same (fun _ => Q) c (f <$> p) (f <$> q) := by
  rw [map_eq_pure_bind, map_eq_pure_bind]
  exact h.bind fun _ _ hQ => pure hQ

theorem discard {Q : Cursor → Prop} (h : Same (fun _ => Q) c p q) :
    Same (fun _ => Q) c (discard p) (discard q) := by
  rw [Functor.discard, LawfulFunctor.map_const, Functor.discard, LawfulFunctor.map_const]
  exact h.map

/-- What is not in front of the current token is behind whatever the current token is behind. -/
theorem past {o : Cursor} (ho : o.Past c) (h : Same (fun _ => c.Upto) c p q) :
    Same (fun _ => o.Past) c p q :=
  h.weaken fun _ _ => ho.trans_upto

theorem upto {o : Cursor} (ho : o.Upto c) (h : Same (fun _ => c.Upto) c p q) :
    Same (fun _ => o.Upto) c p q :=
  h.weaken fun _ _ => ho.trans

/-! ## Elementary steps

Looking at the cursor leaves it alone.  Moving on takes a token that is not `eof`; where a rule
started from a cursor `o`, all that matters afterwards is whether the cursor is behind `o`.
-/

theorem bind_get {k l : Cursor → Parse β} (h : Agree V R c (k c) (l c)) :
    Agree V R c (get >>= k) (get >>= l) :=
  bind (T := fun a c' => a = c ∧ c' = c) (of_run rfl ⟨rfl, rfl⟩) fun _ _ ⟨ha, hc⟩ => by
    rw [ha, hc]
    exact h

theorem bind_set {x y : Parse β} {c' : Cursor} (h : Agree V R c' x y) :
    Agree V R c (do set c'; x) (do set c'; y) :=
  bind (T := fun _ c'' => c'' = c') (of_run rfl rfl) fun _ _ hc => by
    rw [hc]
    exact h

theorem bind_peek {k l : Token → Parse β} (h : Agree V R c (k c.current) (l c.current)) :
    Agree V R c (peek >>= k) (peek >>= l) :=
  bind (T := fun a c' => a = c.current ∧ c' = c) (of_run rfl ⟨rfl, rfl⟩) fun _ _ ⟨ha, hc⟩ => by
    rw [ha, hc]
    exact h

theorem bind_peekKind {k l : TokenKind → Parse β}
    (h : Agree V R c (k c.current.kind) (l c.current.kind)) :
    Agree V R c (peekKind >>= k) (peekKind >>= l) :=
  bind (T := fun a c' => a = c.current.kind ∧ c' = c) (of_run rfl ⟨rfl, rfl⟩)
    fun _ _ ⟨ha, hc⟩ => by
      rw [ha, hc]
      exact h

/-- The last step of a production: its node with the stretch of source it was read from. -/
theorem spanned {first : Span} {f : Span → α} (h : ∀ span, T (f span) c) :
    Agree T S c (do return f (← spanFrom first)) (do return f (← spanFrom first)) :=
  of_run rfl (h _)

variable {o : Cursor} {kind : TokenKind}

theorem advance (ho : o.Upto c) (hne : c.current.kind ≠ .eof) :
    Same (fun _ => o.Past) c advance advance :=
  of_run rfl (ho.trans_past (ho.ready.past_advance hne))

/-- Moving on without looking at the token, to a cursor that is known. -/
theorem bind_discard_advance {x y : Parse β} (h : Agree V R c.advance x y) :
    Agree V R c (do Functor.discard Parse.advance; x) (do Functor.discard Parse.advance; y) :=
  (discard (Q := fun c' => c' = c.advance) (of_run rfl rfl)).bind fun _ _ hc => by
    rw [hc]
    exact h

/-- Moving past a token without looking at it. -/
theorem bind_advance {x y : Parse β} (ho : o.Upto c) (hne : c.current.kind ≠ .eof)
    (h : ∀ c', o.Past c' → Agree V R c' x y) :
    Agree V R c (do Functor.discard Parse.advance; x) (do Functor.discard Parse.advance; y) :=
  bind_discard_advance (h _ (ho.trans_past (ho.ready.past_advance hne)))

theorem accept (ho : o.Upto c) (hne : kind ≠ .eof) :
    Same (fun _ => o.Upto) c (Parse.accept kind) (Parse.accept kind) := by
  by_cases hkind : c.current.kind = kind
  · have hpast := ho.ready.past_advance (hkind.trans_ne hne)
    exact of_run (accept_of_eq hkind) (ho.trans_past hpast).upto
  · exact of_run (accept_of_ne hkind) ho

/-- A choice by the kind of the current token.  If it is the one that is accepted, the step goes on
behind it. -/
theorem ifAccept {x y x' y' : Parse β} (ho : o.Upto c) (hne : kind ≠ .eof)
    (hyes : ∀ c', o.Past c' → Agree V R c' x x') (hno : Agree V R c y y') :
    Agree V R c (do if ← Parse.accept kind then x else y)
      (do if ← Parse.accept kind then x' else y') := by
  by_cases hkind : c.current.kind = kind
  · have hpast : c.Past c.advance := ho.ready.past_advance (hkind.trans_ne hne)
    refine bind (T := fun b c' => b = true ∧ o.Past c')
      (of_run (accept_of_eq hkind) ⟨rfl, ho.trans_past hpast⟩) fun b c' ⟨hb, hc'⟩ => ?_
    rw [hb]
    exact hyes c' hc'
  · refine bind (T := fun b c' => b = false ∧ c' = c)
      (of_run (accept_of_ne hkind) ⟨rfl, rfl⟩) fun b c' ⟨hb, hc'⟩ => ?_
    rw [hb, hc']
    exact hno

theorem expectAmong (ho : o.Upto c) (hne : kind ≠ .eof) (kinds : List TokenKind) :
    Same (fun _ => o.Past) c (Parse.expectAmong kind kinds) (Parse.expectAmong kind kinds) := by
  refine bind_peekKind ?_
  split
  · next hkind => exact advance ho (hkind.trans_ne hne)
  · exact failExpecting

/-- Moving past a token that has to be there. -/
theorem bind_expect {kinds : List TokenKind} {x y : Parse β} (ho : o.Upto c) (hne : kind ≠ .eof)
    (h : ∀ c', o.Past c' → Agree V R c' x y) :
    Agree V R c (do Functor.discard (Parse.expectAmong kind kinds); x)
      (do Functor.discard (Parse.expectAmong kind kinds); y) :=
  (expectAmong ho hne kinds).discard.bind fun _ => h

/-- Skipping newlines, however many there are. -/
theorem bind_skipNewlines {x y : Parse β} (h : Agree V R c.behindNewlines x y) :
    Agree V R c (do Functor.discard Parse.skipNewlines; x)
      (do Functor.discard Parse.skipNewlines; y) :=
  (discard (Q := fun c' => c' = c.behindNewlines) (of_run rfl rfl)).bind fun _ _ hc => by
    rw [hc]
    exact h

/-- Skipping newlines and going on by their number. -/
theorem bind_newlines {k l : Nat → Parse β}
    (h : Agree V R c.behindNewlines (k c.newlines) (l c.newlines)) :
    Agree V R c (Parse.skipNewlines >>= k) (Parse.skipNewlines >>= l) :=
  bind (T := fun n c' => n = c.newlines ∧ c' = c.behindNewlines) (of_run rfl ⟨rfl, rfl⟩)
    fun _ _ ⟨hn, hc⟩ => by
      rw [hn, hc]
      exact h

end Agree

/-- From `c` on, both steps read the same. -/
def Reads (c : Cursor) (p q : Parse α) : Prop :=
  ∀ {c' : Cursor}, c.Upto c' → Same (fun _ => c'.Upto) c' p q

end Parse

end BpScript
