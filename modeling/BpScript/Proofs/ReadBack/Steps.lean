import BpScript.Proofs.Reading
import BpScript.Proofs.Writing

/-!
# Reading what was written

A cursor that stands in front of words, and parsers that succeed on them.  Everything is said of
tokens with any spans, so what is read is known up to its places only.

* `Cursor.Says` — the words between two cursors.
* `Parse.Gives` — a step that moves from one cursor to another and gives a value as wanted.
* `Gives.bind`, `Gives.ifAccept`, `Gives.bind_expect`, … — sequences of steps.
* `itemsUntil_gives`, `sequence_gives` — items between commas.
-/

namespace BpScript

/-! ## Words in front of a cursor -/

namespace Cursor

/-- From `c` on stand `words`, and `c'` is behind them.  The last token is never among the words. -/
def Says : Cursor → List Word → Cursor → Prop
  | c, [], c' => c = c'
  | c, word :: words, c' => word.Fits c.current ∧ c.upcoming ≠ [] ∧ c.advance.Says words c'

variable {c c' : Cursor} {words words' : List Word}

theorem says_append : c.Says (words ++ words') c' ↔ ∃ c₁, c.Says words c₁ ∧ c₁.Says words' c' := by
  induction words generalizing c with
  | nil => simp [Says]
  | cons word words ih =>
    simp only [List.cons_append, Says, ih]
    grind

theorem Says.le (h : c.Says words c') : c'.upcoming.length ≤ c.upcoming.length := by
  induction words generalizing c with
  | nil => rw [show c = c' from h]
  | cons word words ih =>
    obtain ⟨-, hne, hrest⟩ := h
    exact (ih hrest).trans (advance_lt hne).le

/-- Tokens that say words, and one more behind them. -/
theorem says_of_forall₂ {last : Word} : ∀ {words : List Word} {c : Cursor},
    List.Forall₂ Word.Fits (words ++ [last]) (c.current :: c.upcoming) →
    ∃ c', c.Says words c' ∧ last.Fits c'.current ∧ c'.upcoming = []
  | [], c, h => by
    cases h with
    | cons hlast hrest => exact ⟨c, rfl, hlast, List.forall₂_nil_left_iff.1 hrest⟩
  | word :: words, c, h => by
    cases h with
    | cons hword hrest =>
      rcases c with ⟨index, current, _ | ⟨next, rest⟩, lastStop, deferred⟩
      · simp at hrest
      · obtain ⟨c', hsaid, hlast⟩ :=
          says_of_forall₂ (c := ⟨index + 1, next, rest, _, deferred⟩) hrest
        exact ⟨c', ⟨hword, by simp, hsaid⟩, hlast⟩

end Cursor

/-! ## Steps that succeed -/

namespace Parse

variable {α β : Type} {c c₁ c' : Cursor}

/-- The step moves from `c` to `c'` and gives a value that satisfies `Q`. -/
def Gives (p : Parse α) (c c' : Cursor) (Q : α → Prop) : Prop :=
  ∃ a, p c = .ok (a, c') ∧ Q a

namespace Gives

variable {p : Parse α} {k : α → Parse β} {P : α → Prop} {Q : β → Prop} {kind : TokenKind}

theorem pure {a : α} (h : P a) : Gives (pure a) c c P :=
  ⟨a, rfl, h⟩

/-- **Sequences.** -/
theorem bind (hp : p.Gives c c₁ P) (hk : ∀ a, P a → (k a).Gives c₁ c' Q) :
    (p >>= k).Gives c c' Q := by
  obtain ⟨a, hrun, ha⟩ := hp
  obtain ⟨b, hrun', hb⟩ := hk a ha
  exact ⟨b, (run_bind_ok hrun).trans hrun', hb⟩

theorem bind_run {a : α} (hp : p c = .ok (a, c₁)) (hk : (k a).Gives c₁ c' Q) :
    (p >>= k).Gives c c' Q := by
  obtain ⟨b, hrun, hb⟩ := hk
  exact ⟨b, (run_bind_ok hp).trans hrun, hb⟩

theorem bind_map {γ : Type} {f : α → γ} {k : γ → Parse β} (hp : p.Gives c c₁ P)
    (hk : ∀ a, P a → (k (f a)).Gives c₁ c' Q) : (f <$> p >>= k).Gives c c' Q := by
  rw [bind_map_left]
  exact hp.bind hk

theorem bind_peek {k : Token → Parse β} (h : (k c.current).Gives c c' Q) :
    (peek >>= k).Gives c c' Q :=
  bind_run rfl h

theorem bind_peekKind {k : TokenKind → Parse β} (h : (k c.current.kind).Gives c c' Q) :
    (peekKind >>= k).Gives c c' Q :=
  bind_run rfl h

theorem bind_get {k : Cursor → Parse β} (h : (k c).Gives c c' Q) : (get >>= k).Gives c c' Q :=
  bind_run rfl h

theorem bind_set {x : Parse β} (h : x.Gives c₁ c' Q) : Gives (do set c₁; x) c c' Q :=
  bind_run rfl h

theorem spanned {first : Span} {f : Span → β} (h : ∀ span, Q (f span)) :
    Gives (do return f (← spanFrom first)) c c Q :=
  bind_run rfl (pure (h _))

theorem bind_advance {k : Token → Parse β} (h : (k c.current).Gives c.advance c' Q) :
    (advance >>= k).Gives c c' Q :=
  bind_run rfl h

theorem bind_discard_advance {x : Parse β} (h : x.Gives c.advance c' Q) :
    Gives (do discard advance; x) c c' Q :=
  bind_run rfl h

theorem bind_skipNewlines {x : Parse β} (h : x.Gives c.behindNewlines c' Q) :
    Gives (do discard skipNewlines; x) c c' Q :=
  bind_run rfl h

theorem bind_newlines {k : Nat → Parse β} (h : (k c.newlines).Gives c.behindNewlines c' Q) :
    (skipNewlines >>= k).Gives c c' Q :=
  bind_run rfl h

theorem ifAccept {x y : Parse β} (hkind : c.current.kind = kind) (h : x.Gives c.advance c' Q) :
    Gives (do if ← accept kind then x else y) c c' Q :=
  bind_run (accept_of_eq hkind) h

theorem unlessAccept {x y : Parse β} (hkind : c.current.kind ≠ kind) (h : y.Gives c c' Q) :
    Gives (do if ← accept kind then x else y) c c' Q :=
  bind_run (accept_of_ne hkind) h

theorem run_expect {kinds : List TokenKind} (hkind : c.current.kind = kind) :
    expectAmong kind kinds c = .ok (c.current, c.advance) := by
  show (if c.current.kind = kind then advance else failExpecting kinds : Parse Token) c = _
  rw [if_pos hkind]
  rfl

theorem bind_expect {kinds : List TokenKind} {x : Parse β} (hkind : c.current.kind = kind)
    (h : x.Gives c.advance c' Q) : Gives (do discard (expectAmong kind kinds); x) c c' Q := by
  have hrun : (discard (expectAmong kind kinds)) c = .ok (⟨⟩, c.advance) := by
    rw [Functor.discard, LawfulFunctor.map_const, Function.comp, map_eq_pure_bind]
    exact run_bind_ok (run_expect hkind)
  exact bind_run hrun h

theorem bind_ident {k : Ident → Parse β} (hkind : c.current.kind = .ident)
    (h : (k (Production.identOf c.current)).Gives c.advance c' Q) :
    (Production.ident >>= k).Gives c c' Q :=
  bind_run (run_bind_ok (run_expect hkind)) h

end Gives

end Parse

/-! ## Items between commas -/

open Parse Production

theorem intercalate_cons (separator : Word) (words : List Word) : ∀ parts : List (List Word),
    [separator].intercalate (words :: parts) = words ++ parts.flatMap (separator :: ·)
  | [] => by simp
  | words' :: parts => by
    rw [List.intercalate_cons_cons, intercalate_cons separator words' parts]
    simp

/-- The words of one item: it starts neither with a newline nor with the closing bracket, and is
read up to the comma or the bracket behind it. -/
structure ItemReads {α : Type} (close : Symbol) (item : Parse α) (limit : Nat) (words : List Word)
    (Q : α → Prop) : Prop where
  starts {c c' : Cursor} : c.Says words c' →
    c.current.kind ≠ .newline ∧ c.current.kind ≠ .symbol close
  gives {c c' : Cursor} : c.upcoming.length < limit → c.Says words c' →
    c'.current.kind = .symbol .comma ∨ c'.current.kind = .symbol close → item.Gives c c' Q

section Items

variable {α γ : Type} {close : Symbol} {item : Parse α} {f : α → γ} {limit : Nat}

theorem itemsUntil_gives (hclose : close ≠ .comma) : ∀ {bound : Nat} {words : List Word}
    {parts : List (List Word)} {value : γ} {values : List γ} {c c' : Cursor},
    ItemReads close item limit words (f · = value) →
    List.Forall₂ (fun words value => ItemReads close item limit words (f · = value)) parts values →
    c.upcoming.length < bound → c.upcoming.length < limit →
    c.Says (words ++ (parts.flatMap (.symbol .comma :: ·) ++ [.symbol close])) c' →
    (itemsUntil close item bound).Gives c c' (·.map f = value :: values)
  | 0, _, _, _, _, _, _, _, _, hbound, _, _ => absurd hbound (Nat.not_lt_zero _)
  | bound + 1, words, [], value, _, c, c', hitem, .nil, hbound, hlimit, hsaid => by
    obtain ⟨c₁, hfirst, hkind, hmore, rfl⟩ := Cursor.says_append.1 hsaid
    have hkind : c₁.current.kind = .symbol close := hkind
    refine (hitem.gives hlimit hfirst (.inr hkind)).bind fun a ha => ?_
    refine Gives.bind_skipNewlines ?_
    rw [Cursor.behindNewlines_of_ne (by simp [hkind])]
    refine Gives.unlessAccept (by simpa [hkind] using hclose) ?_
    exact Gives.bind_expect hkind (Gives.pure (by simp [ha]))
  | bound + 1, words, words' :: parts, value, _, c, c', hitem, .cons hitem' hrest, hbound, hlimit,
      hsaid => by
    simp only [List.flatMap_cons, List.cons_append, List.append_assoc] at hsaid
    obtain ⟨c₁, hfirst, hkind, hmore, hfurther⟩ := Cursor.says_append.1 hsaid
    have hkind : c₁.current.kind = .symbol .comma := hkind
    have hle := hfirst.le
    have hlt := Cursor.advance_lt hmore
    obtain ⟨c₂, hsecond, -⟩ := Cursor.says_append.1 hfurther
    refine (hitem.gives hlimit hfirst (.inl hkind)).bind fun a ha => ?_
    refine Gives.bind_skipNewlines ?_
    rw [Cursor.behindNewlines_of_ne (by simp [hkind])]
    refine Gives.ifAccept hkind (Gives.bind_skipNewlines ?_)
    rw [Cursor.behindNewlines_of_ne (hitem'.starts hsecond).1]
    have hgives := itemsUntil_gives hclose hitem' hrest (show _ < bound by omega)
      (show _ < limit by omega) hfurther
    exact hgives.bind fun as has => Gives.pure (by simp [ha, has])

/-- A bracketed sequence, from behind its opening bracket. -/
theorem sequence_gives {bound : Nat} {parts : List (List Word)} {values : List γ} {c c' : Cursor}
    (hclose : close ≠ .comma)
    (hreads : List.Forall₂ (fun words value => ItemReads close item limit words (f · = value))
      parts values)
    (hbound : c.upcoming.length < bound) (hlimit : c.upcoming.length < limit)
    (hsaid : c.Says (commas parts ++ [.symbol close]) c') :
    (sequence bound close item).Gives c c' (·.map f = values) := by
  cases hreads with
  | nil =>
    obtain ⟨hkind, -, rfl⟩ := hsaid
    have hkind : c.current.kind = .symbol close := hkind
    refine Gives.bind_skipNewlines ?_
    rw [Cursor.behindNewlines_of_ne (by simp [hkind])]
    exact Gives.ifAccept hkind (Gives.pure rfl)
  | cons hitem hrest =>
    rw [commas, intercalate_cons, List.append_assoc] at hsaid
    obtain ⟨c₁, hfirst, -⟩ := Cursor.says_append.1 hsaid
    obtain ⟨hnewline, hopen⟩ := hitem.starts hfirst
    refine Gives.bind_skipNewlines ?_
    rw [Cursor.behindNewlines_of_ne hnewline]
    exact Gives.unlessAccept hopen (itemsUntil_gives hclose hitem hrest hbound hlimit hsaid)

end Items

end BpScript
