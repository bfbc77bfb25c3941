import BpScript.Proofs.Rewinding
import BpScript.Proofs.Writing
import BpScript.Proofs.Yield

/-!
# Tokens with other newlines between them

Two lists of tokens that differ only in how long their runs of newlines are can be walked along side
by side.  The two cursors are **abreast** as long as what is left of the lists differs in this way
only.  In front of `eof` a run of newlines may be missing from one of the lists; apart from
that either both cursors are in front of a newline or both are in front of the same token.

* `Respaced` — the same tokens, with other runs of newlines.
* `Cursor.Abreast`, `Cursor.Loose` — two cursors with that in front of them; a loose pair may stand
  at different places of a run.  The number of tokens that are not newlines is the same on both
  sides; it bounds nesting and repetition.
* `Cursor.Abreast.cases` — what two cursors that are abreast can be in front of.
* `Cursor.Loose.behindNewlines` — skipping newlines brings a loose pair abreast.
-/

namespace BpScript

open Parse

/-! ## Runs of newlines -/

/-- The tokens behind the newlines that a list starts with. -/
def dropBlank (tokens : List Token) : List Token :=
  tokens.dropWhile (·.kind = .newline)

/-- The number of tokens that are not newlines. -/
def solid (tokens : List Token) : Nat :=
  tokens.countP (·.kind ≠ .newline)

/-- Neither a newline nor `eof`. -/
abbrev TokenKind.IsSolid (kind : TokenKind) : Prop :=
  kind ≠ .newline ∧ kind ≠ .eof

/-- Nothing but newlines in front of `eof`. -/
inductive Trailing : List Token → Prop where
  | eof {last : Token} : last.kind = .eof → Trailing [last]
  | blank {newline : Token} {rest : List Token} : newline.kind = .newline → Trailing rest →
      Trailing (newline :: rest)

/-- The same tokens, with runs of newlines of other lengths between them.  At the end of one of the
lists a run may be missing. -/
inductive Respaced : List Token → List Token → Prop where
  | ends {s t : List Token} : Trailing s → Trailing t → Respaced s t
  | blank {a b : Token} {s t : List Token} : a.kind = .newline → b.kind = .newline →
      Respaced (dropBlank s) (dropBlank t) → Respaced (a :: s) (b :: t)
  | token {a b : Token} {s t : List Token} : a.kind = b.kind → a.lexeme = b.lexeme →
      a.kind.IsSolid → Respaced s t → Respaced (a :: s) (b :: t)

section Lists

variable {s t : List Token} {a : Token}

theorem dropBlank_newline (h : a.kind = .newline) : dropBlank (a :: s) = dropBlank s :=
  List.dropWhile_cons_of_pos (decide_eq_true h)

theorem dropBlank_token (h : a.kind ≠ .newline) : dropBlank (a :: s) = a :: s :=
  List.dropWhile_cons_of_neg (by simpa using h)

theorem solid_newline (h : a.kind = .newline) : solid (a :: s) = solid s :=
  List.countP_cons_of_neg (by simpa using h)

theorem solid_token (h : a.kind ≠ .newline) : solid (a :: s) = solid s + 1 :=
  List.countP_cons_of_pos (by simpa using h)

theorem solid_dropBlank (s : List Token) : solid (dropBlank s) = solid s := by
  induction s with
  | nil => rfl
  | cons a s ih =>
    by_cases ha : a.kind = .newline
    · rw [dropBlank_newline ha, solid_newline ha, ih]
    · rw [dropBlank_token ha]

theorem Trailing.dropBlank (h : Trailing s) :
    ∃ last, dropBlank s = [last] ∧ last.kind = .eof := by
  induction h with
  | @eof last heof => exact ⟨last, dropBlank_token (heof.trans_ne (by decide)), heof⟩
  | blank hnewline _ ih =>
    rw [dropBlank_newline hnewline]
    exact ih

theorem Trailing.solid_eq (h : Trailing s) : solid s = 1 := by
  obtain ⟨last, hlast, heof⟩ := h.dropBlank
  rw [← solid_dropBlank, hlast, solid_token (heof.trans_ne (by decide))]
  rfl

namespace Respaced

theorem ends_dropBlank (hs : Trailing s) (ht : Trailing t) :
    Respaced (dropBlank s) (dropBlank t) := by
  obtain ⟨_, hlast, heof⟩ := hs.dropBlank
  obtain ⟨_, hlast', heof'⟩ := ht.dropBlank
  rw [hlast, hlast']
  exact .ends (.eof heof) (.eof heof')

/-- Lists that differ in their newlines still do so behind the first run. -/
theorem dropBlank (h : Respaced s t) :
    Respaced (BpScript.dropBlank s) (BpScript.dropBlank t) := by
  cases h with
  | ends hs ht => exact ends_dropBlank hs ht
  | blank ha hb hrest =>
    rw [dropBlank_newline ha, dropBlank_newline hb]
    exact hrest
  | token hkind hlexeme hsolid hrest =>
    rw [dropBlank_token hsolid.1, dropBlank_token (hkind ▸ hsolid.1)]
    exact .token hkind hlexeme hsolid hrest

theorem solid_eq (h : Respaced s t) : solid s = solid t := by
  induction h with
  | ends hs ht => rw [hs.solid_eq, ht.solid_eq]
  | blank ha hb _ ih =>
    rw [solid_newline ha, solid_newline hb, ← solid_dropBlank, ih, solid_dropBlank]
  | token hkind _ hsolid _ ih =>
    rw [solid_token hsolid.1, solid_token (hkind ▸ hsolid.1), ih]

theorem pos (h : Respaced s t) : 0 < solid s := by
  induction h with
  | ends hs _ =>
    rw [hs.solid_eq]
    exact Nat.one_pos
  | blank ha _ _ ih =>
    rw [solid_newline ha, ← solid_dropBlank]
    exact ih
  | token _ _ hsolid _ _ =>
    rw [solid_token hsolid.1]
    exact Nat.succ_pos _

theorem ne_nil (h : Respaced s t) : s ≠ [] ∧ t ≠ [] := by
  cases h with
  | ends hs ht => constructor <;> (rintro rfl; contradiction)
  | blank | token => exact ⟨List.cons_ne_nil _ _, List.cons_ne_nil _ _⟩

theorem cons (ha : a.kind ≠ .eof) (h : Respaced s t) : Respaced (a :: s) (a :: t) := by
  by_cases hnewline : a.kind = .newline
  · exact .blank hnewline hnewline h.dropBlank
  · exact .token rfl rfl ⟨hnewline, ha⟩ h

theorem append {front : List Token} (hfront : ∀ a ∈ front, a.kind ≠ .eof) (h : Respaced s t) :
    Respaced (front ++ s) (front ++ t) := by
  induction front with
  | nil => exact h
  | cons a front ih =>
    exact (ih fun b hb => hfront b (List.mem_cons_of_mem a hb)).cons (hfront a List.mem_cons_self)

end Respaced

end Lists

/-! ## Cursors -/

namespace Cursor

/-- Nothing but newlines in front of `eof` from here on. -/
def Ended (c : Cursor) : Prop :=
  Trailing c.tokens

/-- What is in front of the two cursors differs in newlines only, and at most `n` tokens of it are
not newlines. -/
structure Abreast (n : Nat) (c d : Cursor) : Prop where
  respaced : Respaced c.tokens d.tokens
  le : solid c.tokens ≤ n

/-- Abreast, and in front of the same kind of token. -/
structure Facing (n : Nat) (c d : Cursor) : Prop extends c.Abreast n d where
  kind : c.current.kind = d.current.kind

/-- The same, behind the newlines that the two cursors stand in front of. -/
structure Loose (n : Nat) (c d : Cursor) : Prop where
  respaced : Respaced (dropBlank c.tokens) (dropBlank d.tokens)
  le : solid c.tokens ≤ n

variable {n m : Nat} {c d : Cursor} {k : TokenKind}

theorem tokens_eq_cons_advance (h : c.upcoming ≠ []) :
    c.tokens = c.current :: c.advance.tokens := by
  rcases c with ⟨index, current, _ | ⟨next, rest⟩, lastStop, deferred⟩
  · exact absurd rfl h
  · rfl

theorem newlines_eq_zero_iff : c.newlines = 0 ↔ c.current.kind ≠ .newline := by
  by_cases h : c.current.kind = .newline <;> simp [newlines, h]

/-- Skipping newlines drops them, as long as there is something behind them. -/
theorem tokens_behindNewlines (h : 0 < solid c.tokens) :
    c.behindNewlines.tokens = dropBlank c.tokens := by
  induction c using newlineInduction with
  | other c hkind =>
    rw [behindNewlines_of_ne hkind]
    exact (dropBlank_token hkind).symm
  | last c hkind hnil =>
    rw [tokens, hnil, solid_newline hkind] at h
    exact absurd h (Nat.lt_irrefl 0)
  | newline c hkind hne ih =>
    have htokens := tokens_eq_cons_advance hne
    rw [htokens, solid_newline hkind] at h
    rw [behindNewlines_of_newline hkind hne, htokens, dropBlank_newline hkind]
    exact ih h

/-! ### At the end -/

theorem Ended.kind_cases (h : c.Ended) : c.current.kind = .newline ∨ c.current.kind = .eof := by
  rcases c with ⟨_, a, s, _, _⟩
  unfold Ended tokens at h
  cases h with
  | eof heof => exact .inr heof
  | blank hnewline => exact .inl hnewline

theorem Ended.ne (h : c.Ended) (hk : k.IsSolid) : c.current.kind ≠ k := by
  rcases h.kind_cases with hkind | hkind
  · rw [hkind]
    exact hk.1.symm
  · rw [hkind]
    exact hk.2.symm

theorem Ended.advance (h : c.Ended) (hkind : c.current.kind = .newline) : c.advance.Ended := by
  rcases c with ⟨index, current, _ | ⟨next, rest⟩, lastStop, deferred⟩
  · exact h
  · unfold Ended tokens at h
    cases h with
    | blank _ hrest => exact hrest

theorem Ended.behindNewlines (h : c.Ended) :
    c.behindNewlines.Ended ∧ c.behindNewlines.current.kind = .eof := by
  obtain ⟨last, hlast, heof⟩ := Trailing.dropBlank h
  have hsolid : 0 < solid c.tokens := (Trailing.solid_eq h).symm ▸ Nat.one_pos
  have htokens := (tokens_behindNewlines hsolid).trans hlast
  refine ⟨?_, ?_⟩
  · rw [Ended, htokens]
    exact .eof heof
  · rw [← (List.cons.inj htokens).1] at heof
    exact heof

/-! ### Side by side -/

theorem tokens_advance_of_ne {a : Token} {s : List Token} (h : c.tokens = a :: s) (hne : s ≠ []) :
    c.advance.tokens = s := by
  obtain ⟨-, rfl⟩ := List.cons.inj h
  exact (List.cons.inj ((tokens_eq_cons_advance hne).symm.trans h)).2

/-- Two cursors that are abreast are at the end, both in front of a run of newlines, or both in
front of the same token. -/
theorem Abreast.cases (h : c.Abreast n d) : (c.Ended ∧ d.Ended) ∨
    (c.current.kind = .newline ∧ d.current.kind = .newline ∧ c.advance.Loose n d.advance) ∨
      (c.current.kind = d.current.kind ∧ c.current.lexeme = d.current.lexeme ∧
        c.current.kind.IsSolid ∧ c.advance.Abreast (n - 1) d.advance) := by
  obtain ⟨hrespaced, hle⟩ := h
  generalize hs : c.tokens = s at hrespaced hle
  generalize ht : d.tokens = t at hrespaced
  cases hrespaced with
  | ends hs' ht' =>
    refine .inl ⟨?_, ?_⟩
    · rw [Ended, hs]
      exact hs'
    · rw [Ended, ht]
      exact ht'
  | blank ha hb hrest =>
    obtain ⟨rfl, -⟩ := List.cons.inj hs
    obtain ⟨rfl, -⟩ := List.cons.inj ht
    obtain ⟨hne, hne'⟩ := hrest.ne_nil
    have hc := tokens_advance_of_ne hs (by rintro rfl; exact hne rfl)
    have hd := tokens_advance_of_ne ht (by rintro rfl; exact hne' rfl)
    rw [solid_newline ha, ← hc] at hle
    exact .inr (.inl ⟨ha, hb, hc ▸ hd ▸ hrest, hle⟩)
  | token hkind hlexeme hsolid hrest =>
    obtain ⟨rfl, -⟩ := List.cons.inj hs
    obtain ⟨rfl, -⟩ := List.cons.inj ht
    obtain ⟨hne, hne'⟩ := hrest.ne_nil
    have hc := tokens_advance_of_ne hs hne
    have hd := tokens_advance_of_ne ht hne'
    rw [solid_token hsolid.1, ← hc] at hle
    exact .inr (.inr ⟨hkind, hlexeme, hsolid, hc ▸ hd ▸ hrest, by omega⟩)

namespace Abreast

theorem pos (h : c.Abreast n d) : 0 < n :=
  h.respaced.pos.trans_le h.le

theorem not_le_zero (h : c.Abreast n d) : ¬n ≤ 0 :=
  Nat.not_le_of_lt h.pos

theorem mono (h : c.Abreast n d) (hnm : n ≤ m) : c.Abreast m d :=
  ⟨h.respaced, h.le.trans hnm⟩

theorem ended (hc : c.Ended) (hd : d.Ended) (hn : 0 < n) : c.Abreast n d :=
  ⟨.ends hc hd, (Trailing.solid_eq hc).le.trans hn⟩

theorem loose (h : c.Abreast n d) : c.Loose n d :=
  ⟨h.respaced.dropBlank, h.le⟩

/-- What does not tell newlines and `eof` apart is the same on both sides. -/
theorem congr {β : Type} (h : c.Abreast n d) {φ : TokenKind → β} (hφ : φ .newline = φ .eof) :
    φ c.current.kind = φ d.current.kind := by
  rcases h.cases with ⟨hc, hd⟩ | ⟨hc, hd, -⟩ | ⟨hkind, -⟩
  · rcases hc.kind_cases with hc | hc <;> rcases hd.kind_cases with hd | hd <;> simp [hc, hd, hφ]
  · rw [hc, hd]
  · rw [hkind]

theorem kind_iff (h : c.Abreast n d) (hk : k.IsSolid) :
    c.current.kind = k ↔ d.current.kind = k := by
  have hdecide := h.congr (φ := fun kind => decide (kind = k))
    (by rw [decide_eq_false hk.1.symm, decide_eq_false hk.2.symm])
  exact decide_eq_decide.1 hdecide

/-- A token that is not a newline is the same on both sides. -/
theorem solid_token (h : c.Abreast n d) (hsolid : c.current.kind.IsSolid) :
    c.current.kind = d.current.kind ∧ c.current.lexeme = d.current.lexeme ∧
      c.advance.Abreast (n - 1) d.advance := by
  rcases h.cases with ⟨hc, -⟩ | ⟨hc, -⟩ | ⟨hkind, hlexeme, -, hadvance⟩
  · exact absurd rfl (hc.ne hsolid)
  · exact absurd hc hsolid.1
  · exact ⟨hkind, hlexeme, hadvance⟩

/-- Behind a token that is not a newline there is another one on both sides. -/
theorem upcoming_eq (h : c.Abreast n d) (hsolid : c.current.kind.IsSolid) :
    c.upcoming = c.advance.tokens ∧ d.upcoming = d.advance.tokens := by
  have hrespaced := h.respaced
  rw [tokens, tokens] at hrespaced
  have hne : c.upcoming ≠ [] ∧ d.upcoming ≠ [] := by
    cases hrespaced with
    | ends hc _ => exact absurd rfl (Ended.ne (c := c) hc hsolid)
    | blank hc _ _ => exact absurd hc hsolid.1
    | token _ _ _ hrest => exact hrest.ne_nil
  exact ⟨(List.cons.inj (tokens_eq_cons_advance hne.1)).2,
    (List.cons.inj (tokens_eq_cons_advance hne.2)).2⟩

/-- Either both cursors are in front of a run of newlines or neither is, except at the end. -/
theorem newline_cases (h : c.Abreast n d) : (c.Ended ∧ d.Ended) ∨
    (c.current.kind = .newline ∧ d.current.kind = .newline ∧ c.advance.Loose n d.advance) ∨
      (c.current.kind ≠ .newline ∧ d.current.kind ≠ .newline) :=
  h.cases.imp_right (Or.imp_right fun ⟨hkind, _, hsolid, _⟩ => ⟨hsolid.1, hkind ▸ hsolid.1⟩)

end Abreast

/-- Behind the newlines the two cursors stand in front of the same kind of token. -/
theorem Loose.behindNewlines (h : c.Loose n d) :
    c.behindNewlines.Facing n d.behindNewlines := by
  have hpos := h.respaced.pos
  have hsolid := h.respaced.solid_eq
  rw [solid_dropBlank] at hpos
  rw [solid_dropBlank, solid_dropBlank] at hsolid
  have hc := tokens_behindNewlines hpos
  have hd := tokens_behindNewlines (hsolid ▸ hpos)
  have hcurrent : ∀ {e : Cursor} {s : List Token}, e.behindNewlines.tokens = dropBlank s →
      e.behindNewlines.current.kind ≠ .newline := by
    intro e s he hkind
    have hhead := List.head?_dropWhile_not (fun a : Token => decide (a.kind = .newline)) s
    rw [← dropBlank, ← he, tokens] at hhead
    exact of_decide_eq_false hhead hkind
  have habreast : c.behindNewlines.Abreast n d.behindNewlines := by
    refine ⟨hc ▸ hd ▸ h.respaced, ?_⟩
    rw [hc, solid_dropBlank]
    exact h.le
  refine ⟨habreast, ?_⟩
  rcases habreast.cases with ⟨hc', hd'⟩ | ⟨hc', -⟩ | ⟨hkind, -⟩
  · rw [hc'.kind_cases.resolve_left (hcurrent hc), hd'.kind_cases.resolve_left (hcurrent hd)]
  · exact absurd hc' (hcurrent hc)
  · exact hkind

end Cursor
end BpScript
