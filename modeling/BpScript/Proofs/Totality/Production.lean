import BpScript.Proofs.Rewinding
import BpScript.Proofs.Totality

/-!
# Productions come to an end

Every production comes to a definite end, under the assumption that the rules it nests do so behind
a token it has read.  The two sides of the comparison have rules and bounds of their own; each bound
has to reach the end of the tokens.  All rules but statement lists read at least one token.  So do
the items of a sequence, and the loops of the productions end: each round is behind the one before.

* `Rule.Leads` — where a rule ends; `NestsDefinite` — the assumption about the nested rules.
* `itemsUntil_definite`, `chain_progresses`, `furtherStatements_definite`, … — repetition.
* `statement_progresses`, `expr_progresses`, `statements_definite`, … — the rules.
-/

namespace BpScript

open Parse Production

variable {tokens behind : List Token} {o c : Cursor} {f g : Rule → Parse Node} {n m : Nat}

/-! ## Nested rules -/

/-- Where a rule that starts at `c` ends: not in front of `c`, and behind it unless the rule is a
statement list. -/
structure Rule.Leads (tokens : List Token) (rule : Rule) (c c' : Cursor) : Prop where
  reaches : c.Reaches tokens c'
  precedes : rule ≠ .statements → c.Precedes tokens c'

/-- Behind `c`, the rules that a production nests come to definite ends. -/
def NestsDefinite (tokens behind : List Token) (c : Cursor) (f g : Rule → Parse Node) : Prop :=
  ∀ (rule : Rule) {c' : Cursor}, c.Precedes tokens c' →
    Definite behind (fun _ => rule.Leads tokens c') c' (f rule) (g rule)

namespace NestsDefinite

theorem mono {c' : Cursor} (h : NestsDefinite tokens behind c f g) (hc : c.Reaches tokens c') :
    NestsDefinite tokens behind c' f g :=
  fun rule _ hlater => h rule (hc.trans_precedes hlater)

/-- What is behind `o` stays behind it. -/
theorem reads (h : NestsDefinite tokens behind o f g) (rule : Rule) (ho : o.Precedes tokens c) :
    Definite behind (fun _ => o.Precedes tokens) c (f rule) (g rule) :=
  (h rule ho).weaken fun _ _ hleads => ho.trans_reaches hleads.reaches

theorem expr (h : NestsDefinite tokens behind o f g) (ho : o.Precedes tokens c) :
    Definite behind (fun _ => c.Precedes tokens) c (f .expr) (g .expr) :=
  (h .expr ho).weaken fun _ _ hleads => hleads.precedes (by decide)

/-- The items of a sequence are behind its opening bracket. -/
theorem items (h : NestsDefinite tokens behind o f g) (ho : o.Precedes tokens c) :
    Progresses tokens behind c (f .expr) (g .expr) :=
  fun hc => h.expr (ho.trans_reaches hc)

end NestsDefinite

/-! ## Repetition

What is left of the tokens bounds the number of rounds, since every round reads some of them.
-/

theorem itemsUntil_definite {α : Type} {item item' : Parse α} (close : Symbol) :
    ∀ {n m : Nat} {c : Cursor}, c.Reaches tokens c → Progresses tokens behind c item item' →
      tokens.length ≤ c.index + min n m →
      Definite behind (fun _ => c.Precedes tokens) c (itemsUntil close item n)
        (itemsUntil close item' m)
  | 0, _, _, hc, _, hroom => absurd rfl (hc.on.bounds_ne_zero hroom).1
  | _, 0, _, hc, _, hroom => absurd rfl (hc.on.bounds_ne_zero hroom).2
  | n + 1, m + 1, c, hc, hitem, hroom => by
    unfold itemsUntil
    refine (hitem hc).bind fun first c₁ h₁ => Definite.bind_skipNewlines h₁.reaches fun _ => ?_
    have h₂ := h₁.behindNewlines
    refine Definite.ifAccept h₂.refl (by decide) (fun c₃ h₃ => ?_) ?_
    · refine Definite.bind_skipNewlines h₃.reaches fun _ => ?_
      have h₄ := h₂.trans h₃.behindNewlines
      have hlt := h₄.lt
      have hrest := itemsUntil_definite close h₄.refl
        (fun h => hitem (h₄.reaches.trans h)) (show _ ≤ _ + min n m by omega)
      exact (hrest.precedesOn h₄.reaches).bind fun rest c₅ h₅ => Definite.pure h₅
    · exact Definite.bind_expect h₂.reaches (by simp) fun c₃ h₃ => Definite.pure h₃

theorem sequence_definite {α : Type} {item item' : Parse α} (close : Symbol)
    (hc : c.Reaches tokens c) (hitem : Progresses tokens behind c item item')
    (hroom : tokens.length ≤ c.index + min n m) :
    Definite behind (fun _ => c.Reaches tokens) c (sequence n close item)
      (sequence m close item') := by
  refine Definite.bind_skipNewlines hc fun h₁ => ?_
  refine Definite.ifAccept h₁ (by simp) (fun c₂ h₂ => Definite.pure h₂.reaches) ?_
  have hle := h₁.le
  have hitems := itemsUntil_definite close h₁.refl (fun h => hitem (h₁.trans h))
    (show _ ≤ _ + min n m by omega)
  exact hitems.weaken fun _ _ h => h₁.trans h.reaches

theorem chainFrom_definite {operand operand' : Parse Node} (level : Level) :
    ∀ {n m : Nat} {c : Cursor} (lhs : Node), c.Reaches tokens c →
      Progresses tokens behind c operand operand' → tokens.length ≤ c.index + min n m →
      Definite behind (fun _ => c.Reaches tokens) c (chainFrom level operand n lhs)
        (chainFrom level operand' m lhs)
  | 0, _, _, _, hc, _, hroom => absurd rfl (hc.on.bounds_ne_zero hroom).1
  | _, 0, _, _, hc, _, hroom => absurd rfl (hc.on.bounds_ne_zero hroom).2
  | n + 1, m + 1, c, lhs, hc, hoperand, hroom => by
    unfold chainFrom
    refine Definite.bind_peekKind ?_
    split
    · exact Definite.pure hc
    · next op hop =>
      refine Definite.bind_discard_advance hc (Level.ne_eof_of_operator? hop) fun h₁ => ?_
      refine ((hoperand h₁.reaches).precedesOn h₁.reaches).bind fun rhs c₂ h₂ => ?_
      have hlt := h₂.lt
      exact (chainFrom_definite level _ h₂.refl (fun h => hoperand (h₂.reaches.trans h))
        (show _ ≤ _ + min n m by omega)).reaches h₂.reaches

theorem chain_progresses {operand operand' : Parse Node} (level : Level)
    (hoperand : Progresses tokens behind c operand operand')
    (hroom : tokens.length ≤ c.index + min n m) :
    Progresses tokens behind c (chain n level operand) (chain m level operand') := by
  intro c₁ h₁
  refine (hoperand h₁).bind fun lhs c₂ h₂ => ?_
  have h := h₁.trans_precedes h₂
  have hlt := h.lt
  exact (chainFrom_definite level lhs h.refl (fun h' => hoperand (h.reaches.trans h'))
    (show _ ≤ _ + min n m by omega)).precedes h₂

/-! ## Names, literals and brackets -/

theorem ident_definite (ho : o.Reaches tokens c) :
    Definite behind (fun _ => o.Precedes tokens) c ident ident :=
  (Definite.expectAmong ho (by decide) _).bind fun _ _ h => Definite.pure h

/-- Behind a point there is another token to look at, since the point is not the last one.  Where
it is a name, both are moved past. -/
theorem segments_definite : ∀ {n m : Nat} {c : Cursor}, c.Reaches tokens c →
    tokens.length ≤ c.index + min n m →
    Definite behind (fun _ => c.Reaches tokens) c (segments n) (segments m)
  | 0, _, _, hc, hroom => absurd rfl (hc.on.bounds_ne_zero hroom).1
  | _, 0, _, hc, hroom => absurd rfl (hc.on.bounds_ne_zero hroom).2
  | n + 1, m + 1, c, hc, hroom => by
    unfold segments
    refine Definite.bind_get ?_
    by_cases hdot : c.current.kind = .symbol .dot
    · obtain ⟨next, rest, hnext, -⟩ := hc.on.exists_next hc.readable (hdot.trans_ne (by decide))
      have hdot' : (c.followedBy behind).current.kind = .symbol .dot := hdot
      have hnext' : (c.followedBy behind).upcoming = next :: (rest ++ behind) := by
        rw [Cursor.followedBy, hnext, List.cons_append]
      rw [hdot, hnext, hdot', hnext']
      dsimp only
      split
      · next hident =>
        have hcurrent : c.advance.current.kind = .ident := by
          rw [Cursor.advance, hnext]
          exact hident
        refine Definite.bind_discard_advance hc (hdot.trans_ne (by decide)) fun h₁ => ?_
        refine Definite.bind_discard_advance h₁.reaches (hcurrent.trans_ne (by decide)) fun h₂ => ?_
        have hlt := h₂.lt
        have hrest := segments_definite h₂.refl (show _ ≤ _ + min n m by omega)
        exact (hrest.reaches h₂.reaches).bind fun path c₃ h₃ => Definite.pure h₃
      · exact Definite.pure hc
    · split
      · next hdot' _ => exact absurd hdot' hdot
      · split
        · next hdot' _ => exact absurd hdot' hdot
        · exact Definite.pure hc

theorem literal_definite (form : Form) (hc : c.Reaches tokens c) (hne : c.current.kind ≠ .eof) :
    Definite behind (fun _ => c.Precedes tokens) c (literal form) (literal form) :=
  Definite.bind_advance hc hne fun h => Definite.pure h

/-- The token of a number holds one. -/
theorem number_definite (hc : c.Reaches tokens c)
    (hkind : c.current.kind = .int ∨ c.current.kind = .float) :
    Definite behind (fun _ => c.Precedes tokens) c number number := by
  have hne : c.current.kind ≠ .eof := by
    rcases hkind with hkind | hkind <;> exact hkind.trans_ne (by decide)
  obtain ⟨value, hvalue⟩ :=
    hc.readable.numbers c.current (List.mem_of_getElem? hc.on.current) hkind
  refine Definite.bind_advance hc hne fun h => ?_
  rw [hvalue]
  exact Definite.pure h

theorem group_definite (hsub : NestsDefinite tokens behind c f g) (hc : c.Reaches tokens c)
    (hne : c.current.kind ≠ .eof) :
    Definite behind (fun _ => c.Precedes tokens) c (group f) (group g) := by
  refine Definite.bind_discard_advance hc hne fun h₁ => ?_
  refine (hsub.reads .expr h₁).bind fun inner c₂ h₂ => ?_
  exact Definite.bind_expect h₂.reaches (by decide) fun c₃ h₃ => Definite.pure h₃

theorem list_definite (hsub : NestsDefinite tokens behind c f g) (hc : c.Reaches tokens c)
    (hne : c.current.kind ≠ .eof) (hroom : tokens.length ≤ c.index + min n m) :
    Definite behind (fun _ => c.Precedes tokens) c (list n f) (list m g) := by
  refine Definite.bind_advance hc hne fun h₁ => ?_
  have hlt := h₁.lt
  have hitems := sequence_definite .rightSquare h₁.refl (hsub.items h₁)
    (show _ ≤ _ + min n m by omega)
  exact (hitems.precedes h₁).bind fun items c₂ h₂ => Definite.spanned fun _ => h₂

theorem entry_definite (hsub : NestsDefinite tokens behind o f g) (ho : o.Reaches tokens c) :
    Definite behind (fun _ => c.Precedes tokens) c (entry f) (entry g) := by
  have hentry : c.current.kind ≠ .eof → Definite behind (fun _ => c.Precedes tokens) c
      (do
        let key ← advance
        discard <| expect (.symbol .colon)
        return (identOf key, ← f .expr))
      (do
        let key ← advance
        discard <| expect (.symbol .colon)
        return (identOf key, ← g .expr)) := by
    intro hne
    refine Definite.bind_advance ho.refl hne fun h₁ => ?_
    refine Definite.bind_expect h₁.reaches (by decide) fun c₂ h₂ => ?_
    exact ((hsub.mono ho).reads .expr h₂).bind fun value c₃ h₃ => Definite.pure h₃
  refine Definite.bind_peekKind ?_
  split
  · next hkind => exact hentry (hkind.trans_ne (by decide))
  · next hkind => exact hentry (hkind.trans_ne (by decide))
  · exact Definite.failExpecting ho.on

theorem object_definite (hsub : NestsDefinite tokens behind c f g) (hc : c.Reaches tokens c)
    (hne : c.current.kind ≠ .eof) (hroom : tokens.length ≤ c.index + min n m) :
    Definite behind (fun _ => c.Precedes tokens) c (object n f) (object m g) := by
  refine Definite.bind_advance hc hne fun h₁ => ?_
  have hlt := h₁.lt
  have hentry : Progresses tokens behind c.advance (entry f) (entry g) :=
    fun h => entry_definite hsub (h₁.trans_reaches h).reaches
  have hentries := sequence_definite .rightBrace h₁.refl hentry (show _ ≤ _ + min n m by omega)
  exact (hentries.precedes h₁).bind fun entries c₂ h₂ => Definite.spanned fun _ => h₂

/-! ## Assignments -/

theorem declaration_definite (isPublic : Bool) (hsub : NestsDefinite tokens behind o f g)
    (ho : o.Reaches tokens c) (hne : c.current.kind ≠ .eof) :
    Definite behind (fun _ => o.Precedes tokens) c (declaration f isPublic)
      (declaration g isPublic) := by
  refine Definite.bind_advance ho hne fun h₁ => ?_
  refine (ident_definite h₁.reaches).bind fun name c₂ h₂ => ?_
  refine Definite.bind_expect h₂.reaches (by decide) fun c₃ h₃ => ?_
  exact (hsub.reads .expr h₃).bind fun value c₄ h₄ => Definite.spanned fun _ => h₄

/-- Where nothing is assigned, the cursor goes back behind the first name. -/
theorem nameOrAssignment_definite (hsub : NestsDefinite tokens behind c f g)
    (hc : c.Reaches tokens c) (hroom : tokens.length ≤ c.index + min n m) :
    Definite behind (fun _ => c.Precedes tokens) c (nameOrAssignment n f)
      (nameOrAssignment m g) := by
  refine (ident_definite hc).bind fun name c₁ h₁ => Definite.bind_peekKind ?_
  split
  · next op hop =>
    refine Definite.bind_discard_advance h₁.reaches (AssignOp.ne_eof_of_ofToken? hop) fun h₂ => ?_
    exact (hsub.reads .expr h₂).bind fun value c₃ h₃ => Definite.pure h₃
  · have hlt := h₁.lt
    refine Definite.bind_get ?_
    refine ((segments_definite h₁.refl (by omega)).precedes h₁).bind fun path c₂ h₂ => ?_
    refine Definite.bind_peekKind ?_
    split
    · next hop =>
      refine Definite.bind_discard_advance h₂.reaches (AssignOp.ne_eof_of_ofToken? hop) fun h₃ => ?_
      exact (hsub.reads .expr h₃).bind fun value c₄ h₄ => Definite.pure h₄
    · exact Definite.bind_set (Definite.pure h₁)

/-! ## Bodies -/

theorem blockUntilEnd_definite (hsub : NestsDefinite tokens behind o f g)
    (ho : o.Precedes tokens c) :
    Definite behind (fun _ => o.Precedes tokens) c (blockUntilEnd f) (blockUntilEnd g) := by
  refine (hsub.reads .statements ho).bind fun block c₁ h₁ => ?_
  exact Definite.bind_expect h₁.reaches (by decide) fun c₂ h₂ => Definite.pure h₂

theorem body_definite (hsub : NestsDefinite tokens behind o f g) (ho : o.Precedes tokens c) :
    Definite behind (fun _ => o.Precedes tokens) c (body f) (body g) := by
  refine Definite.ifAccept ho.reaches (by decide) (fun c₁ h₁ => ?_) ?_
  · exact (blockUntilEnd_definite hsub h₁).bind fun block c₂ h₂ => Definite.pure h₂
  · exact (hsub.reads .statement ho).bind fun node c₁ h₁ => Definite.pure h₁

theorem elseBody_definite (hsub : NestsDefinite tokens behind o f g) (ho : o.Precedes tokens c)
    (hne : c.current.kind ≠ .eof) :
    Definite behind (fun _ => o.Precedes tokens) c (elseBody f) (elseBody g) :=
  Definite.bind_discard_advance ho.reaches hne fun h => body_definite hsub h

theorem arms_definite : ∀ {n m : Nat} {o c : Cursor}, NestsDefinite tokens behind o f g →
    o.Precedes tokens c → tokens.length ≤ c.index + min n m →
    Definite behind (fun _ => o.Precedes tokens) c (arms f n) (arms g m)
  | 0, _, _, _, _, ho, hroom => absurd rfl (ho.on.bounds_ne_zero hroom).1
  | _, 0, _, _, _, ho, hroom => absurd rfl (ho.on.bounds_ne_zero hroom).2
  | n + 1, m + 1, o, c, hsub, ho, hroom => by
    unfold arms
    have hsub' := hsub.mono ho.reaches
    -- the next condition is behind the `then` of this one
    have hnext : ∀ {c' : Cursor}, c.Precedes tokens c' →
        Definite behind (fun _ => o.Precedes tokens) c' (arms f n) (arms g m) := by
      intro c' h
      have hlt := h.lt
      exact arms_definite hsub (ho.trans h) (show _ ≤ _ + min n m by omega)
    have helse : ∀ {c' : Cursor}, c.Precedes tokens c' → c'.current.kind = .keyword .else_ →
        ∀ arm : Node × Body, Definite behind (fun _ => o.Precedes tokens) c'
          (do return ([arm], some (← elseBody f))) (do return ([arm], some (← elseBody g))) := by
      intro c' h hkind arm
      have hbody := elseBody_definite hsub (ho.trans h) (hkind.trans_ne (by decide))
      exact hbody.bind fun otherwise c'' h' => Definite.pure h'
    refine (hsub.expr ho).bind fun condition c₁ h₁ => ?_
    refine Definite.bind_expect h₁.reaches (by decide) fun c₂ h₂ => ?_
    refine Definite.ifAccept h₂.reaches (by decide) (fun c₃ h₃ => ?_) ?_
    · refine (hsub'.reads .statements h₃).bind fun block c₄ h₄ => ?_
      refine Definite.ifAccept h₄.reaches (by decide)
        (fun c₅ h₅ => Definite.pure (ho.trans h₅)) ?_
      refine Definite.ifAccept h₄.reaches (by decide) (fun c₅ h₅ => ?_) ?_
      · exact (hnext h₅).bind fun _ _ h₆ => Definite.pure h₆
      refine Definite.bind_peekKind ?_
      split
      · next hkind => exact helse h₄ hkind _
      · exact Definite.failExpecting h₄.on
    · refine (hsub'.reads .statement h₂).bind fun node c₃ h₃ => ?_
      refine Definite.ifAccept h₃.reaches (by decide) (fun c₄ h₄ => ?_) ?_
      · exact (hnext h₄).bind fun _ _ h₅ => Definite.pure h₅
      refine Definite.bind_peekKind ?_
      split
      · next hkind => exact helse h₃ hkind _
      · exact Definite.pure (ho.trans h₃)

theorem conditional_definite (hsub : NestsDefinite tokens behind c f g) (hc : c.Reaches tokens c)
    (hne : c.current.kind ≠ .eof) (hroom : tokens.length ≤ c.index + min n m) :
    Definite behind (fun _ => c.Precedes tokens) c (conditional n f) (conditional m g) := by
  refine Definite.bind_advance hc hne fun h₁ => ?_
  have hlt := h₁.lt
  have harms := arms_definite hsub h₁ (show _ ≤ _ + min n m by omega)
  exact harms.bind fun _ c₂ h₂ => Definite.spanned fun _ => h₂

/-! ## Loops -/

theorem loopBody_definite (hsub : NestsDefinite tokens behind o f g) (ho : o.Precedes tokens c) :
    Definite behind (fun _ => o.Precedes tokens) c (loopBody f) (loopBody g) :=
  Definite.bind_expect ho.reaches (by decide) fun _ h => body_definite hsub h

/-- All loops end with their body. -/
theorem loopEnd_definite {first : Span} {make : Body → Span → Node}
    (hsub : NestsDefinite tokens behind o f g) (ho : o.Precedes tokens c) :
    Definite behind (fun _ => o.Precedes tokens) c
      (do let body ← loopBody f; return make body (← spanFrom first))
      (do let body ← loopBody g; return make body (← spanFrom first)) :=
  (loopBody_definite hsub ho).bind fun _ _ h => Definite.spanned fun _ => h

theorem forObject_definite (first : Span) (key : Ident) (hsub : NestsDefinite tokens behind o f g)
    (ho : o.Precedes tokens c) :
    Definite behind (fun _ => o.Precedes tokens) c (forObject f first key)
      (forObject g first key) := by
  refine (ident_definite ho.reaches).bind fun value c₁ h₁ => ?_
  refine Definite.bind_expect h₁.reaches (by decide) fun c₂ h₂ => ?_
  exact (hsub.reads .expr h₂).bind fun object c₃ h₃ => loopEnd_definite hsub h₃

theorem forList_definite (first : Span) (name : Ident) (hsub : NestsDefinite tokens behind o f g)
    (ho : o.Precedes tokens c) :
    Definite behind (fun _ => o.Precedes tokens) c (forList f first name) (forList g first name) :=
  (hsub.reads .expr ho).bind fun _ _ h => loopEnd_definite hsub h

theorem forCount_definite (first : Span) (name : Ident) (hsub : NestsDefinite tokens behind o f g)
    (ho : o.Precedes tokens c) :
    Definite behind (fun _ => o.Precedes tokens) c (forCount f first name)
      (forCount g first name) := by
  refine Definite.bind_expect ho.reaches (by decide) fun c₁ h₁ => ?_
  refine (hsub.reads .expr h₁).bind fun start c₂ h₂ => ?_
  refine Definite.bind_expect h₂.reaches (by decide) fun c₃ h₃ => ?_
  refine (hsub.reads .expr h₃).bind fun stop c₄ h₄ => ?_
  refine Definite.ifAccept h₄.reaches (by decide) (fun c₅ h₅ => ?_) ?_
  · exact (hsub.reads .expr h₅).map.bind fun step c₆ h₆ => loopEnd_definite hsub h₆
  · exact Definite.bind_run rfl rfl (loopEnd_definite hsub h₄)

theorem forLoop_definite (hsub : NestsDefinite tokens behind c f g) (hc : c.Reaches tokens c)
    (hne : c.current.kind ≠ .eof) :
    Definite behind (fun _ => c.Precedes tokens) c (forLoop f) (forLoop g) := by
  refine Definite.bind_advance hc hne fun h₁ => ?_
  refine (ident_definite h₁.reaches).bind fun name c₂ h₂ => ?_
  refine Definite.ifAccept h₂.reaches (by decide)
    (fun c₃ h₃ => forObject_definite _ _ hsub h₃) ?_
  refine Definite.ifAccept h₂.reaches (by decide) (fun c₃ h₃ => forList_definite _ _ hsub h₃) ?_
  exact forCount_definite _ _ hsub h₂

theorem whileLoop_definite (hsub : NestsDefinite tokens behind c f g) (hc : c.Reaches tokens c)
    (hne : c.current.kind ≠ .eof) :
    Definite behind (fun _ => c.Precedes tokens) c (whileLoop f) (whileLoop g) := by
  refine Definite.bind_advance hc hne fun h₁ => ?_
  exact (hsub.reads .expr h₁).bind fun condition c₂ h₂ => loopEnd_definite hsub h₂

/-! ## Functions -/

theorem params_definite : ∀ {n m : Nat} {c : Cursor} (seenOptional : Bool), c.Reaches tokens c →
    tokens.length ≤ c.index + min n m →
    Definite behind (fun _ => c.Reaches tokens) c (params n seenOptional) (params m seenOptional)
  | 0, _, _, _, hc, hroom => absurd rfl (hc.on.bounds_ne_zero hroom).1
  | _, 0, _, _, hc, hroom => absurd rfl (hc.on.bounds_ne_zero hroom).2
  | n + 1, m + 1, c, seenOptional, hc, hroom => by
    unfold params
    refine (ident_definite hc).bind fun name c₁ h₁ => ?_
    refine (Definite.accept h₁.refl (by decide)).bind fun optional c₂ h => ?_
    have h₂ := h₁.trans_reaches h
    split
    · exact Definite.fail (SyntaxFault.sparesNumbers (by simp) _)
    · refine Definite.ifAccept h₂.reaches (by decide) (fun c₃ h₃ => ?_) (Definite.pure h₂.reaches)
      have hlt := h₃.lt
      have hrest := params_definite (seenOptional || optional) h₃.refl
        (show _ ≤ _ + min n m by omega)
      exact (hrest.reaches h₃.reaches).bind fun rest c₄ h₄ => Definite.pure h₄

theorem paramList_definite (ho : o.Precedes tokens c) (hroom : tokens.length ≤ o.index + min n m) :
    Definite behind (fun _ => o.Precedes tokens) c (paramList n) (paramList m) := by
  refine Definite.bind_peekKind ?_
  split
  · have hlt := ho.lt
    refine ((params_definite false ho.refl (by omega)).precedes ho).bind fun names c₁ h₁ => ?_
    exact Definite.bind_expect h₁.reaches (by decide) fun c₂ h₂ => Definite.pure h₂
  · exact Definite.bind_expect ho.reaches (by decide) fun c₁ h₁ => Definite.pure h₁

theorem functionBody_definite (hsub : NestsDefinite tokens behind o f g)
    (ho : o.Precedes tokens c) :
    Definite behind (fun _ => o.Precedes tokens) c (functionBody f) (functionBody g) := by
  refine Definite.ifAccept ho.reaches (by decide) (fun c₁ h₁ => ?_) ?_
  · exact (hsub.reads .expr h₁).bind fun value c₂ h₂ => Definite.pure h₂
  · refine Definite.ifAccept ho.reaches (by decide) (fun c₁ h₁ => ?_)
      (Definite.failExpecting ho.on)
    exact (blockUntilEnd_definite hsub h₁).bind fun block c₂ h₂ => Definite.pure h₂

theorem function_definite (isPublic : Bool) (hsub : NestsDefinite tokens behind o f g)
    (ho : o.Reaches tokens c) (hne : c.current.kind ≠ .eof)
    (hroom : tokens.length ≤ o.index + min n m) :
    Definite behind (fun _ => o.Precedes tokens) c (function n f isPublic)
      (function m g isPublic) := by
  refine Definite.bind_advance ho hne fun h₁ => Definite.bind_peekKind ?_
  refine Definite.bind_ite (fun _ => (ident_definite h₁.reaches).map) (fun _ => Definite.pure h₁)
    fun name c₂ h₂ => ?_
  refine Definite.bind_expect h₂.reaches (by decide) fun c₃ h₃ => ?_
  refine (paramList_definite h₃ hroom).bind fun names c₄ h₄ => ?_
  exact (functionBody_definite hsub h₄).bind fun _ c₅ h₅ => Definite.spanned fun _ => h₅

theorem visible_definite (hsub : NestsDefinite tokens behind c f g) (hc : c.Reaches tokens c)
    (hne : c.current.kind ≠ .eof) (hroom : tokens.length ≤ c.index + min n m) :
    Definite behind (fun _ => c.Precedes tokens) c (visible n f) (visible m g) := by
  refine Definite.bind_advance hc hne fun h₁ => Definite.bind_peekKind ?_
  split
  · next hkind =>
    have hnode := declaration_definite (decide (c.current.kind = .keyword .public_)) hsub h₁.reaches
      (hkind.trans_ne (by decide))
    exact hnode.bind fun node c₂ h₂ => Definite.pure h₂
  · next hkind =>
    have hnode := function_definite (decide (c.current.kind = .keyword .public_)) hsub h₁.reaches
      (hkind.trans_ne (by decide)) hroom
    exact hnode.bind fun node c₂ h₂ => Definite.pure h₂
  · exact (Definite.failExpecting (T := fun _ => c.Precedes tokens) h₁.on).bind
      fun node c₂ h₂ => Definite.pure h₂

/-! ## Choices and imports -/

theorem caseBody_definite (hsub : NestsDefinite tokens behind o f g) (ho : o.Precedes tokens c) :
    Definite behind (fun _ => c.Precedes tokens) c (caseBody f) (caseBody g) := by
  refine Definite.bind_expect ho.refl (by decide) fun c₁ h₁ => Definite.bind_peekKind ?_
  split
  · exact (hsub.mono ho.reaches).reads .statements h₁
  · exact (hsub.mono ho.reaches).reads .statement h₁

theorem cases_definite : ∀ {n m : Nat} {o c : Cursor} (otherwise : Option Node),
    NestsDefinite tokens behind o f g → o.Precedes tokens c → tokens.length ≤ c.index + min n m →
    Definite behind (fun _ => o.Precedes tokens) c (Production.cases f n otherwise)
      (Production.cases g m otherwise)
  | 0, _, _, _, _, _, ho, hroom => absurd rfl (ho.on.bounds_ne_zero hroom).1
  | _, 0, _, _, _, _, ho, hroom => absurd rfl (ho.on.bounds_ne_zero hroom).2
  | n + 1, m + 1, o, c, otherwise, hsub, ho, hroom => by
    -- behind a body the next case is in reach of the bounds
    have hnext : ∀ {c' : Cursor} (otherwise : Option Node), c.Precedes tokens c' →
        Definite behind (fun _ => o.Precedes tokens) c'.behindNewlines
          (Production.cases f n otherwise) (Production.cases g m otherwise) := by
      intro c' otherwise h
      have hlt := h.behindNewlines.lt
      exact cases_definite otherwise hsub (ho.trans h.behindNewlines)
        (show _ ≤ _ + min n m by omega)
    unfold Production.cases
    refine Definite.bind_peekKind ?_
    split
    · next hkind =>
      refine Definite.bind_discard_advance ho.refl (hkind.trans_ne (by decide)) fun h₁ => ?_
      refine ((hsub.mono ho.reaches).reads .expr h₁).bind fun pattern c₂ h₂ => ?_
      refine (caseBody_definite hsub (ho.trans h₂)).bind fun body c₃ h => ?_
      have h₃ := h₂.trans h
      refine Definite.bind_skipNewlines h₃.reaches fun _ => ?_
      exact (hnext otherwise h₃).bind fun _ c₄ h₄ => Definite.pure h₄
    · next hkind =>
      split
      · exact Definite.bind_peek (Definite.fail (SyntaxFault.sparesNumbers (by simp) _))
      · refine Definite.bind_discard_advance ho.refl (hkind.trans_ne (by decide)) fun h₁ => ?_
        refine (caseBody_definite hsub (ho.trans h₁)).bind fun body c₂ h => ?_
        have h₂ := h₁.trans h
        exact Definite.bind_skipNewlines h₂.reaches fun _ => hnext (some body) h₂
    · next hkind =>
      exact Definite.bind_discard_advance ho.reaches (hkind.trans_ne (by decide))
        fun h₁ => Definite.pure h₁
    · exact Definite.failExpecting ho.on

theorem switch_definite (hsub : NestsDefinite tokens behind c f g) (hc : c.Reaches tokens c)
    (hne : c.current.kind ≠ .eof) (hroom : tokens.length ≤ c.index + min n m) :
    Definite behind (fun _ => c.Precedes tokens) c (switch n f) (switch m g) := by
  refine Definite.bind_advance hc hne fun h₁ => ?_
  refine (hsub.reads .expr h₁).bind fun subject c₂ h₂ => Definite.bind_newlines h₂.reaches ?_
  split
  · exact Definite.failExpecting h₂.behindNewlines.on
  · have hlt := h₂.behindNewlines.lt
    have hcases := cases_definite none hsub h₂.behindNewlines (show _ ≤ _ + min n m by omega)
    exact hcases.bind fun _ c₄ h₄ => Definite.spanned fun _ => h₄

theorem importAs_definite (hsub : NestsDefinite tokens behind c f g) (hc : c.Reaches tokens c)
    (hne : c.current.kind ≠ .eof) :
    Definite behind (fun _ => c.Precedes tokens) c (importAs f) (importAs g) := by
  refine Definite.bind_advance hc hne fun h₁ => ?_
  refine (hsub.reads .expr h₁).bind fun lib c₂ h₂ => ?_
  refine Definite.bind_expect h₂.reaches (by decide) fun c₃ h₃ => ?_
  exact (ident_definite h₃.reaches).bind fun name c₄ h₄ => Definite.spanned fun _ => h₄

/-! ## Expressions -/

theorem atom_definite (hsub : NestsDefinite tokens behind c f g) (hc : c.Reaches tokens c)
    (hroom : tokens.length ≤ c.index + min n m) :
    Definite behind (fun _ => c.Precedes tokens) c (atom n f) (atom m g) := by
  refine Definite.bind_peekKind ?_
  split
  case h_1 hkind => exact number_definite hc (.inl hkind)
  case h_2 hkind => exact number_definite hc (.inr hkind)
  case h_3 hkind => exact Definite.bind_peek (literal_definite _ hc (hkind.trans_ne (by decide)))
  case h_4 hkind | h_5 hkind | h_6 hkind =>
    exact literal_definite _ hc (hkind.trans_ne (by decide))
  case h_7 => exact nameOrAssignment_definite hsub hc hroom
  case h_8 hkind => exact group_definite hsub hc (hkind.trans_ne (by decide))
  case h_9 hkind => exact list_definite hsub hc (hkind.trans_ne (by decide)) hroom
  case h_10 hkind => exact object_definite hsub hc (hkind.trans_ne (by decide)) hroom
  case h_11 hkind => exact conditional_definite hsub hc (hkind.trans_ne (by decide)) hroom
  case h_12 hkind => exact forLoop_definite hsub hc (hkind.trans_ne (by decide))
  case h_13 hkind => exact whileLoop_definite hsub hc (hkind.trans_ne (by decide))
  case h_14 hkind => exact function_definite false hsub hc (hkind.trans_ne (by decide)) hroom
  case h_15 hkind => exact switch_definite hsub hc (hkind.trans_ne (by decide)) hroom
  case h_16 hkind => exact importAs_definite hsub hc (hkind.trans_ne (by decide))
  case h_17 hkind | h_18 hkind =>
    exact visible_definite hsub hc (hkind.trans_ne (by decide)) hroom
  case h_19 => exact Definite.failExpecting hc.on

theorem suffixes_definite : ∀ {rest rest' : Nat} {o c : Cursor} (target : Node),
    NestsDefinite tokens behind o f g → o.Reaches tokens c →
    tokens.length ≤ o.index + min n m → tokens.length ≤ c.index + min rest rest' →
    Definite behind (fun _ => c.Reaches tokens) c (suffixes n f rest target)
      (suffixes m g rest' target)
  | 0, _, _, _, _, _, ho, _, hrest => absurd rfl (ho.on.bounds_ne_zero hrest).1
  | _, 0, _, _, _, _, ho, _, hrest => absurd rfl (ho.on.bounds_ne_zero hrest).2
  | rest + 1, rest' + 1, o, c, target, hsub, ho, hroom, hrest => by
    unfold suffixes
    have hagain : ∀ {c' : Cursor} (target : Node), c.Precedes tokens c' →
        Definite behind (fun _ => c.Reaches tokens) c' (suffixes n f rest target)
          (suffixes m g rest' target) := by
      intro c' target h
      have hlt := h.lt
      exact (suffixes_definite target hsub (ho.trans h.reaches) hroom
        (show _ ≤ _ + min rest rest' by omega)).reaches h.reaches
    refine Definite.ifAccept ho.refl (by decide) (fun c₁ h₁ => ?_) ?_
    · exact (ident_definite h₁.reaches).bind fun name c₂ h₂ => hagain _ h₂
    · refine Definite.ifAccept ho.refl (by decide) (fun c₁ h₁ => ?_) (Definite.pure ho.refl)
      have hlater := ho.trans_precedes h₁
      have hlt := hlater.lt
      have hargs := sequence_definite .rightParen h₁.refl (hsub.items hlater)
        (show _ ≤ _ + min n m by omega)
      refine (hargs.precedes h₁).bind fun args c₂ h₂ => ?_
      exact Definite.bind_run rfl rfl (hagain _ h₂)

theorem power_definite (hsub : NestsDefinite tokens behind c f g) (hc : c.Reaches tokens c)
    (hroom : tokens.length ≤ c.index + min n m) :
    Definite behind (fun _ => c.Precedes tokens) c (power n f) (power m g) := by
  have hbase : Definite behind (fun _ => c.Precedes tokens) c (suffixed n f) (suffixed m g) := by
    refine (atom_definite hsub hc hroom).bind fun target c₁ h₁ => ?_
    have hlt := h₁.lt
    exact (suffixes_definite target hsub h₁.reaches hroom
      (show _ ≤ _ + min n m by omega)).precedes h₁
  refine hbase.bind fun base c₁ h₁ => ?_
  refine Definite.ifAccept h₁.reaches (by decide) (fun c₂ h₂ => ?_) (Definite.pure h₁)
  exact (hsub.reads .signed h₂).bind fun exponent c₃ h₃ => Definite.pure h₃

theorem signed_progresses (hsub : NestsDefinite tokens behind c f g)
    (hroom : tokens.length ≤ c.index + min n m) :
    Progresses tokens behind c (signed n f) (signed m g) := by
  intro c₁ h₁
  refine Definite.bind_peek ?_
  have hsign : c₁.current.kind ≠ .eof → ∀ op : UnaryOp,
      Definite behind (fun _ => c₁.Precedes tokens) c₁
        (do
          discard advance
          let operand ← f .signed
          return Node.mk (.unary op operand) (← spanFrom c₁.current.span))
        (do
          discard advance
          let operand ← g .signed
          return Node.mk (.unary op operand) (← spanFrom c₁.current.span)) := by
    intro hne op
    refine Definite.bind_discard_advance h₁.refl hne fun h₂ => ?_
    have hoperand := (hsub.mono h₁).reads .signed h₂
    exact hoperand.bind fun operand c₃ h₃ => Definite.spanned fun _ => h₃
  split
  · next hkind => exact hsign (hkind.trans_ne (by decide)) _
  · next hkind => exact hsign (hkind.trans_ne (by decide)) _
  · have hle := h₁.le
    exact power_definite (hsub.mono h₁) h₁.refl (show _ ≤ _ + min n m by omega)

theorem negation_progresses (hsub : NestsDefinite tokens behind c f g)
    (hroom : tokens.length ≤ c.index + min n m) :
    Progresses tokens behind c (negation n f) (negation m g) := by
  intro c₁ h₁
  refine Definite.bind_peek ?_
  split
  · next hkind =>
    refine Definite.bind_discard_advance h₁.refl (hkind.trans_ne (by decide)) fun h₂ => ?_
    have hoperand := (hsub.mono h₁).reads .negation h₂
    exact hoperand.bind fun operand c₃ h₃ => Definite.spanned fun _ => h₃
  · have hproduct : Progresses tokens behind c _ _ :=
      chain_progresses .product (signed_progresses hsub hroom) hroom
    exact chain_progresses .comparison (chain_progresses .sum hproduct hroom) hroom h₁

theorem expr_progresses (hsub : NestsDefinite tokens behind c f g)
    (hroom : tokens.length ≤ c.index + min n m) :
    Progresses tokens behind c (expr n f) (expr m g) := by
  intro c₁ h₁
  refine Definite.bind_peekKind ?_
  split
  · next hkind =>
    exact declaration_definite false (hsub.mono h₁) h₁.refl (hkind.trans_ne (by decide))
  · have hconjunction : Progresses tokens behind c _ _ :=
      chain_progresses .conjunction (negation_progresses hsub hroom) hroom
    exact chain_progresses .disjunction hconjunction hroom h₁

/-! ## Statements -/

theorem statement_progresses (hsub : NestsDefinite tokens behind c f g)
    (hroom : tokens.length ≤ c.index + min n m) :
    Progresses tokens behind c (statement n f) (statement m g) := by
  intro c₁ h₁
  refine Definite.bind_peek ?_
  split
  · next hkind =>
    refine Definite.bind_discard_advance h₁.refl (hkind.trans_ne (by decide)) fun h₂ => ?_
    refine Definite.bind_peekKind ?_
    split
    · exact Definite.spanned fun _ => h₂
    · have hvalue := expr_progresses hsub hroom (h₁.trans h₂.reaches)
      exact (hvalue.precedesOn h₂.reaches).bind fun value c₃ h₃ => Definite.spanned fun _ => h₃
  · next hkind => exact literal_definite _ h₁.refl (hkind.trans_ne (by decide))
  · next hkind => exact literal_definite _ h₁.refl (hkind.trans_ne (by decide))
  · exact expr_progresses hsub hroom h₁

/-- Where a statement fails, the cursor goes back in front of it, and its error waits there. -/
theorem Cursor.Reaches.rewound {e : Diagnostic} (h : o.Reaches tokens c) (he : e.SparesNumbers) :
    o.Reaches tokens { c with deferred := some (c.index, e) } := by
  refine ⟨h.readable, ⟨h.on.current, h.on.upcoming, h.on.last, fun index e' hwaits => ?_⟩, h.le⟩
  cases hwaits
  exact he

theorem furtherStatements_definite {statement statement' : Parse Node} :
    ∀ {n m : Nat} {c : Cursor}, c.Reaches tokens c →
      Progresses tokens behind c statement statement' → tokens.length ≤ c.index + min n m →
      Definite behind (fun _ => c.Reaches tokens) c (furtherStatements true statement n)
        (furtherStatements true statement' m)
  | 0, _, _, hc, _, hroom => absurd rfl (hc.on.bounds_ne_zero hroom).1
  | _, 0, _, hc, _, hroom => absurd rfl (hc.on.bounds_ne_zero hroom).2
  | n + 1, m + 1, c, hc, hstatement, hroom => by
    unfold furtherStatements
    have h₁ := hc.behindNewlines
    refine Definite.bind_newlines hc ?_
    split
    · exact Definite.pure h₁
    · next hnewlines =>
      refine Definite.bind_peekKind ?_
      split
      · exact Definite.pure h₁
      · refine Definite.bind_get ?_
        cases hstatement h₁ with
        | read hp hq h₂ =>
          rw [hp, hq]
          have hlater := h₁.trans_precedes h₂
          have hlt := hlater.lt
          refine Definite.bind_set ?_
          have hrest := furtherStatements_definite hlater.refl
            (fun h => hstatement (hlater.reaches.trans h)) (show _ ≤ _ + min n m by omega)
          exact (hrest.reaches hlater.reaches).bind fun rest c₃ h₃ => Definite.pure h₃
        | failed hp hq he =>
          rw [hp, hq]
          exact .read rfl rfl (h₁.rewound he)

theorem statements_definite (hsub : NestsDefinite tokens behind c f g) (hc : c.Reaches tokens c)
    (hroom : tokens.length ≤ c.index + min n m) :
    Definite behind (fun _ => c.Reaches tokens) c (statements n f true) (statements m g true) := by
  have hstatement : Progresses tokens behind c (statement n f) (statement m g) :=
    statement_progresses hsub hroom
  refine Definite.bind_peek (Definite.bind_skipNewlines hc fun h₁ => Definite.bind_peekKind ?_)
  refine Definite.bind_ite (fun _ => Definite.pure h₁)
    (fun _ => ((hstatement h₁).weaken fun _ _ h => h₁.trans h.reaches).map) fun leading c₂ h₂ => ?_
  have hle := h₂.le
  have hfurther := furtherStatements_definite h₂.refl (fun h => hstatement (h₂.trans h))
    (show _ ≤ _ + min n m by omega)
  exact (hfurther.reaches h₂).bind fun further c₃ h₃ => Definite.spanned fun _ => h₃

end BpScript
