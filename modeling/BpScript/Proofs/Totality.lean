import BpScript.Proofs.Reading

/-!
# Reading comes to an end

A step that is read from a list of tokens comes to a definite end: a value or an error, never a
lack of a bound.  It stays on the list, which is to say that it never moves past the last token.
There is no place to go from there, so of the list as it is this says little; it is said of longer
lists.  Whatever stands behind the last token, the step ends in the same way, and what stands there
is still in front of the cursor.

* `Cursor.On` — the cursor stands on a token of a list, with the places in the list that it goes by.
* `Cursor.followedBy` — the same place in a longer list.
* `Readable` — lists that can be read; `Cursor.Reaches`, `Cursor.Precedes` — cursors on such a list
  that are not in front of another one, or behind it.
* `Parse.Definite` — one step on a list and one on a longer list come to the same definite end.
* `Definite.bind`, `Definite.ifAccept`, `Definite.bind_expect`, … — sequences of steps.
-/

namespace BpScript

/-! ## Errors -/

/-- The error is not that of a token that should hold a number. -/
def Diagnostic.SparesNumbers (e : Diagnostic) : Prop :=
  e.message ≠ SyntaxFault.invalidNumber.message

/-- All other faults are told in words of their own. -/
theorem SyntaxFault.sparesNumbers {fault : SyntaxFault} (h : fault ≠ .invalidNumber) (span : Span) :
    (fault.locate span).SparesNumbers := by
  have hstart : fault.message.toList.head? = some 'E' := by
    cases fault with
    | expected kinds =>
      rw [message, String.toList_append]
      rfl
    | expectedContinuation => rfl
    | requiredAfterOptional => rfl
    | secondDefault => rfl
    | invalidNumber => exact absurd rfl h
  intro hmessage
  rw [show fault.message = invalidNumber.message from hmessage] at hstart
  exact absurd hstart (by decide)

/-! ## Lists of tokens -/

/-- What can be read: the last token is `eof`, and the tokens of numbers hold numbers. -/
structure Readable (tokens : List Token) : Prop where
  ends : ∃ before last, tokens = before ++ [last] ∧ last.kind = .eof
  numbers : ∀ token ∈ tokens, token.kind = .int ∨ token.kind = .float →
    ∃ value, Number.parse? token.lexeme = some value

namespace Cursor

/-- The cursor stands on one of `tokens`, and the places it goes by are in the list: the token at
its index is the current one, the rest of the list is upcoming, and what was read last ends with the
token before, or with the first one if there is none.  No error about a number waits. -/
structure On (tokens : List Token) (c : Cursor) : Prop where
  current : tokens[c.index]? = some c.current
  upcoming : tokens.drop (c.index + 1) = c.upcoming
  last : ∃ last, tokens[c.index - 1]? = some last ∧ c.lastStop = last.span.stop
  waiting : ∀ index e, c.deferred = some (index, e) → e.SparesNumbers

/-- The same place in a list that goes on behind its last token. -/
def followedBy (behind : List Token) (c : Cursor) : Cursor :=
  { c with upcoming := c.upcoming ++ behind }

/-- `c'` stands on a list that can be read, and not in front of `c`. -/
structure Reaches (tokens : List Token) (c c' : Cursor) : Prop where
  readable : Readable tokens
  on : c'.On tokens
  le : c.index ≤ c'.index

/-- `c'` stands on a list that can be read, and behind `c`. -/
structure Precedes (tokens : List Token) (c c' : Cursor) : Prop where
  readable : Readable tokens
  on : c'.On tokens
  lt : c.index < c'.index

variable {tokens behind : List Token} {a b c : Cursor}

theorem On.index_lt (h : c.On tokens) : c.index < tokens.length :=
  (List.getElem?_eq_some_iff.1 h.current).1

/-- Bounds that reach the last token reach further than the cursor. -/
theorem On.bounds_ne_zero (h : c.On tokens) {n m : Nat}
    (hroom : tokens.length ≤ c.index + min n m) : n ≠ 0 ∧ m ≠ 0 := by
  have hlt := h.index_lt
  omega

theorem On.cons_upcoming (h : c.On tokens) : tokens.drop c.index = c.current :: c.upcoming := by
  obtain ⟨hlt, hcurrent⟩ := List.getElem?_eq_some_iff.1 h.current
  rw [List.drop_eq_getElem_cons hlt, hcurrent, h.upcoming]

theorem On.length_upcoming (h : c.On tokens) : c.index + 1 + c.upcoming.length = tokens.length := by
  have hlt := h.index_lt
  have hlength := congrArg List.length h.upcoming
  rw [List.length_drop] at hlength
  omega

theorem On.endsInEof (h : c.On tokens) (htokens : Readable tokens) : c.EndsInEof := by
  obtain ⟨before, last, rfl, hlast⟩ := htokens.ends
  have hlt := h.index_lt
  rw [List.length_append, List.length_singleton] at hlt
  have hdrop : c.current :: c.upcoming = before.drop c.index ++ [last] := by
    rw [← h.cons_upcoming, List.drop_append_of_le_length (by omega)]
  simp only [EndsInEof, hdrop, List.getLast_append, List.getLast_singleton]
  exact hlast

/-- In front of a token that is not `eof` there is another one, which is on the list. -/
theorem On.exists_next (h : c.On tokens) (htokens : Readable tokens) (hne : c.current.kind ≠ .eof) :
    ∃ next rest, c.upcoming = next :: rest ∧ tokens[c.index + 1]? = some next := by
  cases hupcoming : c.upcoming with
  | nil => exact absurd hupcoming ((h.endsInEof htokens).upcoming_ne_nil hne)
  | cons next rest =>
    refine ⟨next, rest, rfl, ?_⟩
    have hhead := congrArg List.head? (h.upcoming.trans hupcoming)
    rwa [List.head?_drop] at hhead

/-! Moving past a token that is not `eof` leads to the next one, in the longer list as well. -/

theorem On.index_advance (h : c.On tokens) (htokens : Readable tokens)
    (hne : c.current.kind ≠ .eof) : c.advance.index = c.index + 1 := by
  obtain ⟨next, rest, hupcoming, -⟩ := h.exists_next htokens hne
  rw [advance, hupcoming]

theorem On.advance (h : c.On tokens) (htokens : Readable tokens) (hne : c.current.kind ≠ .eof) :
    c.advance.On tokens := by
  obtain ⟨next, rest, hupcoming, hnext⟩ := h.exists_next htokens hne
  rw [Cursor.advance, hupcoming]
  refine ⟨hnext, ?_, ⟨c.current, h.current, rfl⟩, h.waiting⟩
  have htail := congrArg List.tail (h.upcoming.trans hupcoming)
  rwa [List.tail_drop] at htail

theorem On.advance_followedBy (h : c.On tokens) (htokens : Readable tokens)
    (hne : c.current.kind ≠ .eof) :
    (c.followedBy behind).advance = c.advance.followedBy behind := by
  obtain ⟨next, rest, hupcoming, -⟩ := h.exists_next htokens hne
  rw [Cursor.advance, Cursor.advance, followedBy, hupcoming]
  rfl

theorem Reaches.trans (hab : a.Reaches tokens b) (hbc : b.Reaches tokens c) : a.Reaches tokens c :=
  ⟨hbc.readable, hbc.on, Nat.le_trans hab.le hbc.le⟩

theorem Reaches.refl (h : a.Reaches tokens b) : b.Reaches tokens b :=
  ⟨h.readable, h.on, Nat.le_refl _⟩

theorem Precedes.reaches (h : a.Precedes tokens b) : a.Reaches tokens b :=
  ⟨h.readable, h.on, Nat.le_of_lt h.lt⟩

theorem Precedes.refl (h : a.Precedes tokens b) : b.Reaches tokens b :=
  h.reaches.refl

theorem Precedes.trans_reaches (hab : a.Precedes tokens b) (hbc : b.Reaches tokens c) :
    a.Precedes tokens c :=
  ⟨hbc.readable, hbc.on, Nat.lt_of_lt_of_le hab.lt hbc.le⟩

theorem Reaches.trans_precedes (hab : a.Reaches tokens b) (hbc : b.Precedes tokens c) :
    a.Precedes tokens c :=
  ⟨hbc.readable, hbc.on, Nat.lt_of_le_of_lt hab.le hbc.lt⟩

theorem Precedes.trans (hab : a.Precedes tokens b) (hbc : b.Precedes tokens c) :
    a.Precedes tokens c :=
  hab.trans_reaches hbc.reaches

theorem Reaches.precedes_advance (h : a.Reaches tokens b) (hne : b.current.kind ≠ .eof) :
    a.Precedes tokens b.advance := by
  refine ⟨h.readable, h.on.advance h.readable hne, ?_⟩
  have hle := h.le
  have hindex := h.on.index_advance h.readable hne
  omega

/-! Newlines are skipped one after the other, and the last of them stands in front of `eof`. -/

theorem On.behindNewlines_followedBy (h : c.On tokens) (htokens : Readable tokens)
    (behind : List Token) :
    (c.followedBy behind).newlines = c.newlines ∧
      (c.followedBy behind).behindNewlines = c.behindNewlines.followedBy behind ∧
      c.behindNewlines.On tokens ∧ c.behindNewlines.index = c.index + c.newlines := by
  induction c using newlineInduction with
  | other c hkind =>
    have hkind' : (c.followedBy behind).current.kind ≠ .newline := hkind
    rw [newlines_eq_zero hkind', newlines_eq_zero hkind, behindNewlines_of_ne hkind',
      behindNewlines_of_ne hkind]
    exact ⟨rfl, rfl, h, rfl⟩
  | last c hkind hnil =>
    exact absurd hnil ((h.endsInEof htokens).upcoming_ne_nil (hkind.trans_ne (by decide)))
  | newline c hkind hne ih =>
    have heof : c.current.kind ≠ .eof := hkind.trans_ne (by decide)
    have hkind' : (c.followedBy behind).current.kind = .newline := hkind
    have hlonger : (c.followedBy behind).upcoming ≠ [] := List.append_ne_nil_of_left_ne_nil hne _
    obtain ⟨hnewlines, hbehind, hon, hindex⟩ := ih (h.advance htokens heof)
    rw [newlines_of_newline hkind' hlonger, behindNewlines_of_newline hkind' hlonger,
      h.advance_followedBy htokens heof, hnewlines, hbehind, newlines_of_newline hkind hne,
      behindNewlines_of_newline hkind hne]
    refine ⟨rfl, rfl, hon, ?_⟩
    rw [hindex, h.index_advance htokens heof]
    omega

theorem Reaches.behindNewlines (h : a.Reaches tokens b) : a.Reaches tokens b.behindNewlines := by
  obtain ⟨-, -, hon, hindex⟩ := h.on.behindNewlines_followedBy h.readable []
  have hle := h.le
  exact ⟨h.readable, hon, by omega⟩

theorem Precedes.behindNewlines (h : a.Precedes tokens b) : a.Precedes tokens b.behindNewlines :=
  h.trans_reaches h.refl.behindNewlines

end Cursor

/-! ## Definite ends -/

namespace Parse

variable {α β : Type} {tokens behind : List Token} {o c : Cursor}

/-- Read from `c`, the step `p` gives a value and a cursor that satisfy `T`, or an error that is not
about a number.  Where more tokens stand `behind` the last one, the step `q` ends in the same way,
and does not touch them. -/
inductive Definite (behind : List Token) (T : α → Cursor → Prop) (c : Cursor) (p q : Parse α) :
    Prop where
  | read {a : α} {c' : Cursor} (hp : p c = .ok (a, c'))
    (hq : q (c.followedBy behind) = .ok (a, c'.followedBy behind)) (h : T a c')
  | failed {e : Diagnostic} (hp : p c = .error (.report e))
    (hq : q (c.followedBy behind) = .error (.report e)) (h : e.SparesNumbers)

/-- From `c` on, both steps read at least one token. -/
def Progresses (tokens behind : List Token) (c : Cursor) (p q : Parse α) : Prop :=
  ∀ {c' : Cursor}, c.Reaches tokens c' → Definite behind (fun _ => c'.Precedes tokens) c' p q

namespace Definite

variable {T U : α → Cursor → Prop} {V : β → Cursor → Prop} {p q : Parse α} {k l : α → Parse β}
  {kind : TokenKind} {x y x' y' : Parse β}

theorem pure {a : α} (h : T a c) : Definite behind T c (pure a) (pure a) :=
  .read rfl rfl h

theorem fail {e : Diagnostic} (h : e.SparesNumbers) :
    Definite behind T c (Parse.fail e) (Parse.fail e) :=
  .failed rfl rfl h

theorem failHere {fault : SyntaxFault} (hc : c.On tokens) (hfault : fault ≠ .invalidNumber) :
    Definite behind T c (Parse.failHere fault) (Parse.failHere fault) := by
  refine .failed (e := c.failure fault) rfl rfl ?_
  rw [Cursor.failure]
  split
  · next index e hdeferred =>
    split
    · exact hc.waiting index e hdeferred
    · exact SyntaxFault.sparesNumbers hfault _
  · exact SyntaxFault.sparesNumbers hfault _

theorem failExpecting {kinds : List TokenKind} (hc : c.On tokens) :
    Definite behind T c (Parse.failExpecting kinds) (Parse.failExpecting kinds) :=
  failHere hc (by simp)

theorem weaken (h : Definite behind T c p q) (hT : ∀ a c', T a c' → U a c') :
    Definite behind U c p q := by
  cases h with
  | read hp hq h => exact .read hp hq (hT _ _ h)
  | failed hp hq h => exact .failed hp hq h

/-- After steps that give a value. -/
theorem bind_run {a : α} {c' : Cursor} (hp : p c = .ok (a, c'))
    (hq : q (c.followedBy behind) = .ok (a, c'.followedBy behind))
    (h : Definite behind V c' (k a) (l a)) : Definite behind V c (p >>= k) (q >>= l) := by
  cases h with
  | read hp' hq' h => exact .read ((run_bind_ok hp).trans hp') ((run_bind_ok hq).trans hq') h
  | failed hp' hq' h => exact .failed ((run_bind_ok hp).trans hp') ((run_bind_ok hq).trans hq') h

/-- **Sequences.**  The next steps start where the first ones ended. -/
theorem bind (h : Definite behind T c p q)
    (hk : ∀ a c', T a c' → Definite behind V c' (k a) (l a)) :
    Definite behind V c (p >>= k) (q >>= l) := by
  cases h with
  | read hp hq h => exact bind_run hp hq (hk _ _ h)
  | failed hp hq h => exact .failed (run_bind_error hp) (run_bind_error hq) h

/-- A choice between two steps whose values are used in the same way. -/
theorem bind_ite {b : Prop} [Decidable b] {u v u' v' : Parse α}
    (hu : b → Definite behind T c u u') (hv : ¬b → Definite behind T c v v')
    (hk : ∀ a c', T a c' → Definite behind V c' (k a) (l a)) :
    Definite behind V c (if b then u >>= k else v >>= k) (if b then u' >>= l else v' >>= l) := by
  split
  · next hb => exact (hu hb).bind hk
  · next hb => exact (hv hb).bind hk

theorem map {Q : Cursor → Prop} {f : α → β} (h : Definite behind (fun _ => Q) c p q) :
    Definite behind (fun _ => Q) c (f <$> p) (f <$> q) := by
  rw [map_eq_pure_bind, map_eq_pure_bind]
  exact h.bind fun _ _ hQ => pure hQ

theorem discard {Q : Cursor → Prop} (h : Definite behind (fun _ => Q) c p q) :
    Definite behind (fun _ => Q) c (discard p) (discard q) := by
  rw [Functor.discard, LawfulFunctor.map_const, Functor.discard, LawfulFunctor.map_const]
  exact h.map

/-! What is not in front of the current token is not in front of anything before it. -/

theorem reaches (ho : o.Reaches tokens c) (h : Definite behind (fun _ => c.Reaches tokens) c p q) :
    Definite behind (fun _ => o.Reaches tokens) c p q :=
  h.weaken fun _ _ => ho.trans

theorem precedes (ho : o.Precedes tokens c)
    (h : Definite behind (fun _ => c.Reaches tokens) c p q) :
    Definite behind (fun _ => o.Precedes tokens) c p q :=
  h.weaken fun _ _ => ho.trans_reaches

theorem precedesOn (ho : o.Reaches tokens c)
    (h : Definite behind (fun _ => c.Precedes tokens) c p q) :
    Definite behind (fun _ => o.Precedes tokens) c p q :=
  h.weaken fun _ _ => ho.trans_precedes

/-! Looking at the cursor leaves it alone. -/

theorem bind_get {k l : Cursor → Parse β}
    (h : Definite behind V c (k c) (l (c.followedBy behind))) :
    Definite behind V c (get >>= k) (get >>= l) := by
  cases h with
  | read hp hq h => exact .read hp hq h
  | failed hp hq h => exact .failed hp hq h

theorem bind_set {c' : Cursor} (h : Definite behind V c' x x') :
    Definite behind V c (do set c'; x) (do set (c'.followedBy behind); x') :=
  bind_run rfl rfl h

theorem bind_peek {k l : Token → Parse β} (h : Definite behind V c (k c.current) (l c.current)) :
    Definite behind V c (peek >>= k) (peek >>= l) :=
  bind_run rfl rfl h

theorem bind_peekKind {k l : TokenKind → Parse β}
    (h : Definite behind V c (k c.current.kind) (l c.current.kind)) :
    Definite behind V c (peekKind >>= k) (peekKind >>= l) :=
  bind_run rfl rfl h

/-- The last step of a production: its node with the stretch of source it was read from. -/
theorem spanned {first : Span} {f : Span → α} (h : ∀ span, T (f span) c) :
    Definite behind T c (do return f (← spanFrom first)) (do return f (← spanFrom first)) :=
  .read rfl rfl (h _)

/-! Moving on takes a token that is not `eof`. -/

theorem run_advance (hc : o.Reaches tokens c) (hne : c.current.kind ≠ .eof) :
    Parse.advance (c.followedBy behind) = .ok (c.current, c.advance.followedBy behind) := by
  rw [← hc.on.advance_followedBy hc.readable hne]
  rfl

theorem advance (ho : o.Reaches tokens c) (hne : c.current.kind ≠ .eof) :
    Definite behind (fun token c' => token = c.current ∧ o.Precedes tokens c') c Parse.advance
      Parse.advance :=
  .read rfl (run_advance ho hne) ⟨rfl, ho.precedes_advance hne⟩

theorem bind_advance {k l : Token → Parse β} (ho : o.Reaches tokens c)
    (hne : c.current.kind ≠ .eof)
    (h : o.Precedes tokens c.advance → Definite behind V c.advance (k c.current) (l c.current)) :
    Definite behind V c (Parse.advance >>= k) (Parse.advance >>= l) :=
  bind_run rfl (run_advance ho hne) (h (ho.precedes_advance hne))

theorem bind_discard_advance (ho : o.Reaches tokens c) (hne : c.current.kind ≠ .eof)
    (h : o.Precedes tokens c.advance → Definite behind V c.advance x x') :
    Definite behind V c (do Functor.discard Parse.advance; x)
      (do Functor.discard Parse.advance; x') := by
  refine (discard (Q := fun c' => c' = c.advance) ?_).bind fun _ c' hc' => ?_
  · exact .read rfl (run_advance ho hne) rfl
  · rw [hc']
    exact h (ho.precedes_advance hne)

/-- A choice by the kind of the current token.  If it is the one that is accepted, the step goes on
behind it. -/
theorem ifAccept (ho : o.Reaches tokens c) (hne : kind ≠ .eof)
    (hyes : ∀ c', o.Precedes tokens c' → Definite behind V c' x x')
    (hno : Definite behind V c y y') :
    Definite behind V c (do if ← Parse.accept kind then x else y)
      (do if ← Parse.accept kind then x' else y') := by
  by_cases hkind : c.current.kind = kind
  · have heof := hkind.trans_ne hne
    refine bind_run (accept_of_eq hkind) ?_ (hyes _ (ho.precedes_advance heof))
    rw [← ho.on.advance_followedBy ho.readable heof]
    exact accept_of_eq hkind
  · exact bind_run (accept_of_ne hkind) (accept_of_ne hkind) hno

theorem accept (ho : o.Reaches tokens c) (hne : kind ≠ .eof) :
    Definite behind (fun _ => o.Reaches tokens) c (Parse.accept kind) (Parse.accept kind) := by
  rw [← bind_pure (Parse.accept kind)]
  by_cases hkind : c.current.kind = kind
  · have heof := hkind.trans_ne hne
    refine bind_run (accept_of_eq hkind) ?_ (pure (ho.precedes_advance heof).reaches)
    rw [← ho.on.advance_followedBy ho.readable heof]
    exact accept_of_eq hkind
  · exact bind_run (accept_of_ne hkind) (accept_of_ne hkind) (pure ho)

theorem expectAmong (ho : o.Reaches tokens c) (hne : kind ≠ .eof) (kinds : List TokenKind) :
    Definite behind (fun _ => o.Precedes tokens) c (Parse.expectAmong kind kinds)
      (Parse.expectAmong kind kinds) := by
  refine bind_peekKind ?_
  split
  · next hkind => exact (advance ho (hkind.trans_ne hne)).weaken fun _ _ h => h.2
  · exact failExpecting ho.on

/-- Moving past a token that has to be there. -/
theorem bind_expect {kinds : List TokenKind} (ho : o.Reaches tokens c) (hne : kind ≠ .eof)
    (h : ∀ c', o.Precedes tokens c' → Definite behind V c' x x') :
    Definite behind V c (do Functor.discard (Parse.expectAmong kind kinds); x)
      (do Functor.discard (Parse.expectAmong kind kinds); x') :=
  (expectAmong ho hne kinds).discard.bind fun _ => h

/-- Skipping newlines and going on by their number. -/
theorem bind_newlines {k l : Nat → Parse β} (ho : o.Reaches tokens c)
    (h : Definite behind V c.behindNewlines (k c.newlines) (l c.newlines)) :
    Definite behind V c (Parse.skipNewlines >>= k) (Parse.skipNewlines >>= l) := by
  obtain ⟨hnewlines, hbehind, -⟩ := ho.on.behindNewlines_followedBy ho.readable behind
  refine bind_run rfl ?_ h
  show Except.ok ((c.followedBy behind).newlines, (c.followedBy behind).behindNewlines) = _
  rw [hnewlines, hbehind]
  rfl

/-- Skipping newlines, however many there are. -/
theorem bind_skipNewlines (ho : o.Reaches tokens c)
    (h : o.Reaches tokens c.behindNewlines → Definite behind V c.behindNewlines x x') :
    Definite behind V c (do Functor.discard Parse.skipNewlines; x)
      (do Functor.discard Parse.skipNewlines; x') := by
  have hskip : Definite behind (fun _ c' => c' = c.behindNewlines) c Parse.skipNewlines
      Parse.skipNewlines := by
    rw [← bind_pure Parse.skipNewlines]
    exact bind_newlines ho (pure rfl)
  refine hskip.discard.bind fun _ c' hc' => ?_
  rw [hc']
  exact h ho.behindNewlines

end Definite
end Parse
end BpScript
