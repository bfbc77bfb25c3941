import BpScript.Proofs.Reading

/-!
# Rewinding changes nothing

When a statement fails, the list it is in ends in front of it, and the error waits there.  Whatever
the list is part of then finds a token in its way that is none of those it could go on with, and
reports the error that waits.  So every program is read as it would be if the error had been
reported at once.

The two parsers are compared production by production, under the assumption that the rules a
production nests agree behind a token it has read (`Nests`).  Only the rule `statements` leaves the
first parser stuck; the constructs that nest it are those with bodies, and each of them has to
report the error.

* `Stuck` — in front of a token that nothing goes on with, and an error waits there.
* `blockUntilEnd_same`, `arms_same`, `cases_same` — the constructs that nest `statements`.
* `Rule.parseWithin_agrees` — all rules, by induction on the bound.
* **`parse_eq_parse_without_rewinding`** — programs.
-/

namespace BpScript

open Parse Production

/-! ## Stuck -/

/-- An error waits at the current token, which neither goes on with a statement list nor closes
one. -/
structure Stuck (e : Diagnostic) (c : Cursor) : Prop where
  waits : c.deferred = some (c.index, e)
  newline : c.current.kind ≠ .newline
  closes : c.current.kind.closesList = false

namespace Stuck

variable {e : Diagnostic} {c : Cursor} {α : Type} {kind : TokenKind}

/-- Whatever is wrong with the token, the error that waits is reported. -/
theorem failHere (h : Stuck e c) (fault : SyntaxFault) :
    (Parse.failHere fault : Parse α) c = .error (.report e) := by
  show Except.error (ParseFailure.report (c.failure fault)) = _
  rw [Cursor.failure, h.waits]
  exact congrArg (Except.error ∘ ParseFailure.report) (if_pos rfl)

/-- The token is none of those that close a list. -/
theorem ne (h : Stuck e c) (hkind : kind.closesList = true) : c.current.kind ≠ kind := by
  intro heq
  rw [← heq, h.closes] at hkind
  cases hkind

theorem expectAmong (h : Stuck e c) (hkind : kind.closesList = true) (kinds : List TokenKind) :
    Parse.expectAmong kind kinds c = .error (.report e) := by
  show (if c.current.kind = kind then advance else failExpecting kinds : Parse Token) c = _
  rw [if_neg (h.ne hkind)]
  exact h.failHere _

end Stuck

/-! ## Nested rules -/

/-- Behind `c`, the rules that a production nests agree. -/
structure Nests (c : Cursor) (f g : Rule → Parse Node) : Prop where
  rule : ∀ (rule : Rule) {c' : Cursor}, rule ≠ .statements → c.Past c' →
    Same (fun _ => c'.Upto) c' (f rule) (g rule)
  statements : ∀ {c' : Cursor}, c.Past c' →
    Agree (fun _ => c'.Upto) Stuck c' (f .statements) (g .statements)

variable {f g : Rule → Parse Node} {c : Cursor} {bound : Nat}

namespace Nests

theorem mono {c' : Cursor} (h : Nests c f g) (hc : c.Upto c') : Nests c' f g :=
  ⟨fun rule _ hrule hpast => h.rule rule hrule (hc.trans_past hpast),
    fun hpast => h.statements (hc.trans_past hpast)⟩

theorem expr {c' : Cursor} (h : Nests c f g) (hc : c.Past c') :
    Same (fun _ => c.Past) c' (f .expr) (g .expr) :=
  (h.rule _ (by decide) hc).past hc

theorem statement {c' : Cursor} (h : Nests c f g) (hc : c.Past c') :
    Same (fun _ => c.Past) c' (f .statement) (g .statement) :=
  (h.rule _ (by decide) hc).past hc

end Nests

/-! ## Repetition -/

theorem AssignOp.ne_eof_of_ofToken? {kind : TokenKind} {op : AssignOp}
    (h : AssignOp.ofToken? kind = some op) : kind ≠ .eof := by
  rintro rfl
  cases h

theorem Level.ne_eof_of_operator? {level : Level} {kind : TokenKind} {op : BinaryOp}
    (h : level.operator? kind = some op) : kind ≠ .eof := by
  rintro rfl
  cases h

theorem itemsUntil_same {α : Type} {item item' : Parse α} (close : Symbol) :
    ∀ {bound : Nat} {c : Cursor}, c.Ready → Reads c item item' → c.upcoming.length < bound →
      Same (fun _ => c.Upto) c (itemsUntil close item bound) (itemsUntil close item' bound)
  | 0, _, _, _, hbound => absurd hbound (Nat.not_lt_zero _)
  | bound + 1, c, hc, hitem, hbound => by
    unfold itemsUntil
    refine (hitem hc.upto).bind fun first c₁ h₁ => ?_
    have h₂ := h₁.trans h₁.ready.upto_behindNewlines
    refine Agree.bind_skipNewlines (Agree.ifAccept h₂ (by decide) (fun c₃ h₃ => ?_) ?_)
    · have h₄ := h₃.trans_upto h₃.ready.upto_behindNewlines
      have hlt := h₄.lt
      refine Agree.bind_skipNewlines ?_
      have hrest := itemsUntil_same close h₄.ready (fun h => hitem (h₄.upto.trans h))
        (show _ < bound by omega)
      exact (hrest.upto h₄.upto).bind fun rest c₅ h₅ => Agree.pure h₅
    · exact Agree.bind_expect h₂ (by simp) fun c₃ h₃ => Agree.pure h₃.upto

theorem sequence_same {α : Type} {item item' : Parse α} (close : Symbol) (hc : c.Ready)
    (hitem : Reads c item item') (hbound : c.upcoming.length < bound) :
    Same (fun _ => c.Upto) c (sequence bound close item) (sequence bound close item') := by
  have h₁ := hc.upto_behindNewlines
  have hle := h₁.le
  refine Agree.bind_skipNewlines (Agree.ifAccept h₁ (by simp) (fun c₂ h₂ => ?_) ?_)
  · exact Agree.pure h₂.upto
  · exact (itemsUntil_same close h₁.ready (fun h => hitem (h₁.trans h)) (by omega)).upto h₁

theorem chainFrom_same {operand operand' : Parse Node} (level : Level) :
    ∀ {bound : Nat} {c : Cursor} (lhs : Node), c.Ready → Reads c operand operand' →
      c.upcoming.length < bound →
      Same (fun _ => c.Upto) c (chainFrom level operand bound lhs)
        (chainFrom level operand' bound lhs)
  | 0, _, _, _, _, hbound => absurd hbound (Nat.not_lt_zero _)
  | bound + 1, c, lhs, hc, hoperand, hbound => by
    unfold chainFrom
    refine Agree.bind_peekKind ?_
    split
    · exact Agree.pure hc.upto
    · next op hop =>
      refine Agree.bind_advance hc.upto (Level.ne_eof_of_operator? hop) fun c₁ h₁ => ?_
      refine ((hoperand h₁.upto).past h₁).bind fun rhs c₂ h₂ => ?_
      have hlt := h₂.lt
      exact (chainFrom_same level _ h₂.ready (fun h => hoperand (h₂.upto.trans h))
        (by omega)).upto h₂.upto

theorem chain_reads {operand operand' : Parse Node} (level : Level)
    (hoperand : Reads c operand operand') (hbound : c.upcoming.length < bound) :
    Reads c (chain bound level operand) (chain bound level operand') := by
  intro c₁ h₁
  refine (hoperand h₁).bind fun lhs c₂ h₂ => ?_
  have hle := (h₁.trans h₂).le
  exact (chainFrom_same level lhs h₂.ready (fun h => hoperand ((h₁.trans h₂).trans h))
    (by omega)).upto h₂

/-! ## Names, literals and brackets -/

theorem ident_same {o : Cursor} (ho : o.Upto c) : Same (fun _ => o.Past) c ident ident :=
  (Agree.expectAmong ho (by decide) _).bind fun _ _ h => Agree.pure h

/-- Each segment is a point and a name, so both tokens can be moved past. -/
theorem segments_same : ∀ {bound : Nat} {c : Cursor}, c.Ready → c.upcoming.length < bound →
    Same (fun _ => c.Upto) c (segments bound) (segments bound)
  | 0, _, _, hbound => absurd hbound (Nat.not_lt_zero _)
  | bound + 1, c, hc, hbound => by
    unfold segments
    refine Agree.bind_get ?_
    split
    · next next rest hdot hnext =>
      split
      · next hident =>
        have hpast : c.Past c.advance := hc.past_advance (hdot.trans_ne (by decide))
        have hcurrent : c.advance.current.kind = .ident := by
          rw [Cursor.advance, hnext]
          exact hident
        have hpast' := hpast.trans (hpast.ready.past_advance (hcurrent.trans_ne (by decide)))
        have hlt := hpast'.lt
        refine Agree.bind_discard_advance (Agree.bind_discard_advance ?_)
        have hrest := (segments_same hpast'.ready (show _ < bound by omega)).upto hpast'.upto
        exact hrest.bind fun rest c₁ h₁ => Agree.pure h₁
      · exact Agree.pure hc.upto
    · exact Agree.pure hc.upto

theorem literal_same (form : Form) (hc : c.Ready) (hne : c.current.kind ≠ .eof) :
    Same (fun _ => c.Upto) c (literal form) (literal form) :=
  (Agree.advance hc.upto hne).bind fun _ _ h => Agree.pure h.upto

theorem number_same (hc : c.Ready) (hne : c.current.kind ≠ .eof) :
    Same (fun _ => c.Upto) c number number := by
  refine (Agree.advance hc.upto hne).bind fun token c₁ h₁ => ?_
  split
  · exact Agree.pure h₁.upto
  · exact Agree.fail

theorem group_same (hsub : Nests c f g) (hc : c.Ready) (hne : c.current.kind ≠ .eof) :
    Same (fun _ => c.Upto) c (group f) (group g) := by
  refine Agree.bind_advance hc.upto hne fun c₁ h₁ => ?_
  refine (hsub.expr h₁).bind fun inner c₂ h₂ => ?_
  exact Agree.bind_expect h₂.upto (by decide) fun c₃ h₃ => Agree.pure h₃.upto

/-- The items of a sequence are behind its opening bracket. -/
theorem Nests.reads_expr {c' : Cursor} (hsub : Nests c f g) (hc : c.Past c') :
    Reads c' (f .expr) (g .expr) :=
  fun h => hsub.rule _ (by decide) (hc.trans_upto h)

theorem list_same (hsub : Nests c f g) (hc : c.Ready) (hne : c.current.kind ≠ .eof)
    (hbound : c.upcoming.length < bound) :
    Same (fun _ => c.Upto) c (list bound f) (list bound g) := by
  refine (Agree.advance hc.upto hne).bind fun first c₁ h₁ => ?_
  have hlt := h₁.lt
  have hitems := sequence_same .rightSquare h₁.ready (hsub.reads_expr h₁) (show _ < bound by omega)
  exact (hitems.upto h₁.upto).bind fun items c₂ h₂ => Agree.spanned fun _ => h₂

theorem entry_same (hsub : Nests c f g) (hc : c.Ready) :
    Same (fun _ => c.Upto) c (entry f) (entry g) := by
  have hentry : c.current.kind ≠ .eof → Same (fun _ => c.Upto) c
      (do
        let key ← advance
        discard <| expect (.symbol .colon)
        return (identOf key, ← f .expr))
      (do
        let key ← advance
        discard <| expect (.symbol .colon)
        return (identOf key, ← g .expr)) := by
    intro hne
    refine (Agree.advance hc.upto hne).bind fun key c₁ h₁ => ?_
    refine Agree.bind_expect h₁.upto (by decide) fun c₂ h₂ => ?_
    exact (hsub.expr h₂).bind fun value c₃ h₃ => Agree.pure h₃.upto
  refine Agree.bind_peekKind ?_
  split
  · next hkind => exact hentry (hkind.trans_ne (by decide))
  · next hkind => exact hentry (hkind.trans_ne (by decide))
  · exact Agree.failExpecting

theorem object_same (hsub : Nests c f g) (hc : c.Ready) (hne : c.current.kind ≠ .eof)
    (hbound : c.upcoming.length < bound) :
    Same (fun _ => c.Upto) c (object bound f) (object bound g) := by
  refine (Agree.advance hc.upto hne).bind fun first c₁ h₁ => ?_
  have hlt := h₁.lt
  have hentry : Reads c₁ (entry f) (entry g) :=
    fun h => entry_same (hsub.mono (h₁.trans_upto h).upto) h.ready
  have hentries := sequence_same .rightBrace h₁.ready hentry (show _ < bound by omega)
  exact (hentries.upto h₁.upto).bind fun entries c₂ h₂ => Agree.spanned fun _ => h₂

/-! ## Assignments -/

theorem declaration_same (isPublic : Bool) {o : Cursor} (hsub : Nests o f g) (ho : o.Upto c)
    (hne : c.current.kind ≠ .eof) :
    Same (fun _ => o.Upto) c (declaration f isPublic) (declaration g isPublic) := by
  refine (Agree.advance ho hne).bind fun first c₁ h₁ => ?_
  refine (ident_same h₁.upto).bind fun name c₂ h₂ => ?_
  refine Agree.bind_expect h₂.upto (by decide) fun c₃ h₃ => ?_
  exact (hsub.expr h₃).bind fun value c₄ h₄ => Agree.spanned fun _ => h₄.upto

theorem nameOrAssignment_same (hsub : Nests c f g) (hc : c.Ready)
    (hbound : c.upcoming.length < bound) :
    Same (fun _ => c.Upto) c (nameOrAssignment bound f) (nameOrAssignment bound g) := by
  refine (ident_same hc.upto).bind fun name c₁ h₁ => Agree.bind_peekKind ?_
  split
  · next op hop =>
    refine Agree.bind_advance h₁.upto (AssignOp.ne_eof_of_ofToken? hop) fun c₂ h₂ => ?_
    exact (hsub.expr h₂).bind fun value c₃ h₃ => Agree.pure h₃.upto
  · have hlt := h₁.lt
    refine Agree.bind_get ?_
    refine ((segments_same h₁.ready (by omega)).past h₁).bind fun path c₂ h₂ => ?_
    refine Agree.bind_peekKind ?_
    split
    · next hop =>
      refine Agree.bind_advance h₂.upto (AssignOp.ne_eof_of_ofToken? hop) fun c₃ h₃ => ?_
      exact (hsub.expr h₃).bind fun value c₄ h₄ => Agree.pure h₄.upto
    · exact Agree.of_run rfl h₁.upto

/-! ## Bodies

A body in a block is closed by `end`, or by what begins the next part of its construct.
-/

/-- A block has to be closed by its `end`, so one that is stuck is reported. -/
theorem blockUntilEnd_same {o : Cursor} (hsub : Nests o f g) (ho : o.Past c) :
    Same (fun _ => o.Past) c (blockUntilEnd f) (blockUntilEnd g) := by
  refine (hsub.statements ho).bind_stuck (fun block c₁ h => ?_) fun e block c₁ hstuck => ?_
  · have h₁ := ho.trans_upto h
    exact Agree.bind_expect h₁.upto (by decide) fun c₂ h₂ => Agree.pure h₂
  · exact Stalls.bind_error (run_discard_error (hstuck.expectAmong rfl _))

theorem body_same {o : Cursor} (hsub : Nests o f g) (ho : o.Past c) :
    Same (fun _ => o.Past) c (body f) (body g) := by
  refine Agree.ifAccept ho.upto (by decide) (fun c₁ h₁ => ?_) ?_
  · exact (blockUntilEnd_same hsub h₁).bind fun block c₂ h₂ => Agree.pure h₂
  · exact (hsub.statement ho).bind fun node c₁ h₁ => Agree.pure h₁

theorem elseBody_same {o : Cursor} (hsub : Nests o f g) (ho : o.Upto c)
    (hne : c.current.kind ≠ .eof) : Same (fun _ => o.Past) c (elseBody f) (elseBody g) :=
  Agree.bind_advance ho hne fun _ h => body_same hsub h

/-- Behind a block arm stands `end`, `elif` or `else`. -/
theorem Stuck.arms {e : Diagnostic} (h : Stuck e c) (arm : Node × Body)
    (further : Parse (List (Node × Body) × Option Body)) :
    Stalls (fun _ _ => False) e c (do
      if ← accept (.keyword .end_) then return ([arm], none)
      else if ← accept (.keyword .elif_) then
        let (further, otherwise) ← further
        return (arm :: further, otherwise)
      else if (← peekKind) = .keyword .else_ then return ([arm], some (← elseBody f))
      else failExpecting [.keyword .end_, .keyword .elif_, .keyword .else_]) := by
  refine Stalls.bind_ok (accept_of_ne (h.ne rfl)) (Stalls.bind_ok (accept_of_ne (h.ne rfl)) ?_)
  refine Stalls.bind_ok rfl ?_
  rw [if_neg (h.ne rfl)]
  exact .inl (h.failHere _)

theorem arms_same : ∀ {bound : Nat} {o c : Cursor}, Nests o f g → o.Past c →
    c.upcoming.length < bound → Same (fun _ => o.Past) c (arms f bound) (arms g bound)
  | 0, _, _, _, _, hbound => absurd hbound (Nat.not_lt_zero _)
  | bound + 1, o, c, hsub, ho, hbound => by
    unfold arms
    -- the next condition is behind the `then` of this one
    have hnext : ∀ {c' : Cursor}, c.Past c' → Same (fun _ => o.Past) c' (arms f bound)
        (arms g bound) := by
      intro c' h
      have hlt := h.lt
      exact arms_same hsub (ho.trans h) (by omega)
    refine (hsub.rule _ (by decide) ho).bind fun condition c₁ h₁ => ?_
    refine Agree.bind_expect h₁ (by decide) fun c₂ h₂ => ?_
    refine Agree.ifAccept h₂.upto (by decide) (fun c₃ h₃ => ?_) ?_
    · refine (hsub.statements (ho.trans h₃)).bind_stuck (fun block c₄ h => ?_)
        fun e block c₄ hstuck => hstuck.arms _ _
      have h₄ := h₃.trans_upto h
      refine Agree.ifAccept h₄.upto (by decide) (fun c₅ h₅ => Agree.pure (ho.trans h₅)) ?_
      refine Agree.ifAccept h₄.upto (by decide) (fun c₅ h₅ => ?_) ?_
      · exact (hnext h₅).bind fun _ _ h₆ => Agree.pure h₆
      refine Agree.bind_peekKind ?_
      split
      · next hkind =>
        have helse := elseBody_same hsub (ho.trans h₄).upto (hkind.trans_ne (by decide))
        exact helse.bind fun otherwise c₅ h₅ => Agree.pure h₅
      · exact Agree.failExpecting
    · refine (hsub.rule _ (by decide) (ho.trans h₂)).bind fun node c₃ h => ?_
      have h₃ := h₂.trans_upto h
      refine Agree.ifAccept h₃.upto (by decide) (fun c₄ h₄ => ?_) ?_
      · exact (hnext h₄).bind fun _ _ h₅ => Agree.pure h₅
      refine Agree.bind_peekKind ?_
      split
      · next hkind =>
        have helse := elseBody_same hsub (ho.trans h₃).upto (hkind.trans_ne (by decide))
        exact helse.bind fun otherwise c₄ h₄ => Agree.pure h₄
      · exact Agree.pure (ho.trans h₃)

theorem conditional_same (hsub : Nests c f g) (hc : c.Ready) (hne : c.current.kind ≠ .eof)
    (hbound : c.upcoming.length < bound) :
    Same (fun _ => c.Upto) c (conditional bound f) (conditional bound g) := by
  refine (Agree.advance hc.upto hne).bind fun first c₁ h₁ => ?_
  have hlt := h₁.lt
  exact (arms_same hsub h₁ (by omega)).bind fun _ c₂ h₂ => Agree.spanned fun _ => h₂.upto

/-! ## Loops -/

theorem loopBody_same {o : Cursor} (hsub : Nests o f g) (ho : o.Past c) :
    Same (fun _ => o.Past) c (loopBody f) (loopBody g) :=
  Agree.bind_expect ho.upto (by decide) fun _ h => body_same hsub h

/-- All loops end with their body. -/
theorem loopEnd_same {o : Cursor} {first : Span} {make : Body → Span → Node} (hsub : Nests o f g)
    (ho : o.Past c) :
    Same (fun _ => o.Upto) c (do let body ← loopBody f; return make body (← spanFrom first))
      (do let body ← loopBody g; return make body (← spanFrom first)) :=
  (loopBody_same hsub ho).bind fun _ _ h => Agree.spanned fun _ => h.upto

theorem forObject_same {o : Cursor} (first : Span) (key : Ident) (hsub : Nests o f g)
    (ho : o.Past c) : Same (fun _ => o.Upto) c (forObject f first key) (forObject g first key) := by
  refine (ident_same ho.upto).bind fun value c₁ h₁ => ?_
  refine Agree.bind_expect h₁.upto (by decide) fun c₂ h₂ => ?_
  exact (hsub.expr h₂).bind fun object c₃ h₃ => loopEnd_same hsub h₃

theorem forList_same {o : Cursor} (first : Span) (name : Ident) (hsub : Nests o f g)
    (ho : o.Past c) : Same (fun _ => o.Upto) c (forList f first name) (forList g first name) :=
  (hsub.expr ho).bind fun _ _ h => loopEnd_same hsub h

theorem forCount_same {o : Cursor} (first : Span) (name : Ident) (hsub : Nests o f g)
    (ho : o.Past c) :
    Same (fun _ => o.Upto) c (forCount f first name) (forCount g first name) := by
  refine Agree.bind_expect ho.upto (by decide) fun c₁ h₁ => ?_
  refine (hsub.expr h₁).bind fun start c₂ h₂ => ?_
  refine Agree.bind_expect h₂.upto (by decide) fun c₃ h₃ => ?_
  refine (hsub.expr h₃).bind fun stop c₄ h₄ => ?_
  refine Agree.ifAccept h₄.upto (by decide) (fun c₅ h₅ => ?_) ?_
  · exact (hsub.expr h₅).map.bind fun step c₆ h₆ => loopEnd_same hsub h₆
  · exact (Agree.pure (T := fun _ => o.Past) h₄).bind fun step c₅ h₅ => loopEnd_same hsub h₅

theorem forLoop_same (hsub : Nests c f g) (hc : c.Ready) (hne : c.current.kind ≠ .eof) :
    Same (fun _ => c.Upto) c (forLoop f) (forLoop g) := by
  refine (Agree.advance hc.upto hne).bind fun first c₁ h₁ => ?_
  refine (ident_same h₁.upto).bind fun name c₂ h₂ => ?_
  refine Agree.ifAccept h₂.upto (by decide) (fun c₃ h₃ => forObject_same _ _ hsub h₃) ?_
  refine Agree.ifAccept h₂.upto (by decide) (fun c₃ h₃ => forList_same _ _ hsub h₃) ?_
  exact forCount_same _ _ hsub h₂

theorem whileLoop_same (hsub : Nests c f g) (hc : c.Ready) (hne : c.current.kind ≠ .eof) :
    Same (fun _ => c.Upto) c (whileLoop f) (whileLoop g) := by
  refine (Agree.advance hc.upto hne).bind fun first c₁ h₁ => ?_
  exact (hsub.expr h₁).bind fun condition c₂ h₂ => loopEnd_same hsub h₂

/-! ## Functions -/

theorem params_same : ∀ {bound : Nat} {c : Cursor} (seenOptional : Bool), c.Ready →
    c.upcoming.length < bound →
    Same (fun _ => c.Upto) c (params bound seenOptional) (params bound seenOptional)
  | 0, _, _, _, hbound => absurd hbound (Nat.not_lt_zero _)
  | bound + 1, c, seenOptional, hc, hbound => by
    unfold params
    refine (ident_same hc.upto).bind fun name c₁ h₁ => ?_
    refine (Agree.accept h₁.ready.upto (by decide)).bind fun optional c₂ h => ?_
    have h₂ := h₁.trans_upto h
    split
    · exact Agree.fail
    · refine Agree.ifAccept h₂.upto (by decide) (fun c₃ h₃ => ?_) (Agree.pure h₂.upto)
      have hlt := h₃.lt
      have hrest := params_same (seenOptional || optional) h₃.ready (show _ < bound by omega)
      exact (hrest.upto h₃.upto).bind fun rest c₄ h₄ => Agree.pure h₄

theorem paramList_same {o : Cursor} (ho : o.Past c) (hbound : o.upcoming.length < bound) :
    Same (fun _ => o.Past) c (paramList bound) (paramList bound) := by
  refine Agree.bind_peekKind ?_
  split
  · have hlt := ho.lt
    refine ((params_same false ho.ready (by omega)).past ho).bind fun names c₁ h₁ => ?_
    exact Agree.bind_expect h₁.upto (by decide) fun c₂ h₂ => Agree.pure h₂
  · exact Agree.bind_expect ho.upto (by decide) fun c₁ h₁ => Agree.pure h₁

theorem functionBody_same {o : Cursor} (hsub : Nests o f g) (ho : o.Past c) :
    Same (fun _ => o.Past) c (functionBody f) (functionBody g) := by
  refine Agree.ifAccept ho.upto (by decide) (fun c₁ h₁ => ?_) ?_
  · exact (hsub.expr h₁).bind fun value c₂ h₂ => Agree.pure h₂
  · refine Agree.ifAccept ho.upto (by decide) (fun c₁ h₁ => ?_) Agree.failExpecting
    exact (blockUntilEnd_same hsub h₁).bind fun block c₂ h₂ => Agree.pure h₂

theorem function_same (isPublic : Bool) {o : Cursor} (hsub : Nests o f g) (ho : o.Upto c)
    (hne : c.current.kind ≠ .eof) (hbound : o.upcoming.length < bound) :
    Same (fun _ => o.Upto) c (function bound f isPublic) (function bound g isPublic) := by
  refine (Agree.advance ho hne).bind fun first c₁ h₁ => Agree.bind_peekKind ?_
  refine Agree.bind_ite (fun _ => (ident_same h₁.upto).map) (fun _ => Agree.pure h₁)
    fun name c₂ h₂ => ?_
  refine Agree.bind_expect h₂.upto (by decide) fun c₃ h₃ => ?_
  refine (paramList_same h₃ hbound).bind fun names c₄ h₄ => ?_
  exact (functionBody_same hsub h₄).bind fun _ c₅ h₅ => Agree.spanned fun _ => h₅.upto

theorem visible_same (hsub : Nests c f g) (hc : c.Ready) (hne : c.current.kind ≠ .eof)
    (hbound : c.upcoming.length < bound) :
    Same (fun _ => c.Upto) c (visible bound f) (visible bound g) := by
  refine (Agree.advance hc.upto hne).bind fun modifier c₁ h₁ => Agree.bind_peekKind ?_
  split
  · next hkind =>
    have hnode := declaration_same (decide (modifier.kind = .keyword .public_)) hsub h₁.upto
      (hkind.trans_ne (by decide))
    exact hnode.bind fun node c₂ h₂ => Agree.pure h₂
  · next hkind =>
    have hnode := function_same (decide (modifier.kind = .keyword .public_)) hsub h₁.upto
      (hkind.trans_ne (by decide)) hbound
    exact hnode.bind fun node c₂ h₂ => Agree.pure h₂
  · exact (Agree.failExpecting (T := fun _ => c.Upto)).bind fun node c₂ h₂ => Agree.pure h₂

/-! ## Choices and imports -/

/-- The body of a case in a block is a whole statement list, so it may be stuck. -/
theorem caseBody_agrees {o : Cursor} (hsub : Nests o f g) (ho : o.Past c) :
    Agree (fun _ => c.Upto) Stuck c (caseBody f) (caseBody g) := by
  refine Agree.bind_expect ho.ready.upto (by decide) fun c₁ h₁ => Agree.bind_peekKind ?_
  have hagree := hsub.statements (ho.trans h₁)
  split
  · exact hagree.weaken fun _ _ h => h₁.upto.trans h
  · exact ((hsub.rule _ (by decide) (ho.trans h₁)).upto h₁.upto).of_same

/-- Between cases newlines are skipped, and there is none where a body is stuck. -/
theorem Stuck.skipNewlines {e : Diagnostic} (h : Stuck e c) :
    (discard Parse.skipNewlines) c = .ok ((), c) := by
  show Except.ok ((), c.advanceBy c.newlines) = _
  rw [Cursor.newlines_eq_zero h.newline]
  rfl

/-- Behind a case stands `case`, `default` or `end`. -/
theorem Stuck.cases {e : Diagnostic} (h : Stuck e c) (otherwise : Option Node) :
    Production.cases f (bound + 1) otherwise c = .error (.report e) := by
  have hstalls : Stalls (fun _ _ => False) e c (Production.cases f (bound + 1) otherwise) := by
    unfold Production.cases
    refine Stalls.bind_ok rfl ?_
    split
    · next hkind => exact absurd hkind (h.ne rfl)
    · next hkind => exact absurd hkind (h.ne rfl)
    · next hkind => exact absurd hkind (h.ne rfl)
    · exact .inl (h.failHere _)
  exact hstalls.resolve_right fun ⟨_, _, _, hfalse⟩ => hfalse

theorem cases_same : ∀ {bound : Nat} {o c : Cursor} (otherwise : Option Node), Nests o f g →
    o.Past c → c.upcoming.length < bound →
    Same (fun _ => o.Past) c (Production.cases f bound otherwise)
      (Production.cases g bound otherwise)
  | 0, _, _, _, _, _, hbound => absurd hbound (Nat.not_lt_zero _)
  | bound + 1, o, c, otherwise, hsub, ho, hbound => by
    -- behind a keyword the next case is in reach of the bound, also when the body is stuck
    have hnext : ∀ {c' : Cursor} (otherwise : Option Node), c.Past c' →
        Same (fun _ => o.Past) c'.behindNewlines (Production.cases f bound otherwise)
          (Production.cases g bound otherwise) := by
      intro c' otherwise h
      have h' := h.trans_upto h.ready.upto_behindNewlines
      have hlt := h'.lt
      exact cases_same otherwise hsub (ho.trans h') (by omega)
    have hstuck : ∀ {c₁ c' : Cursor} {e : Diagnostic} (otherwise : Option Node), c.Past c₁ →
        Stuck e c' → Production.cases f bound otherwise c' = .error (.report e) := by
      intro c₁ c' e otherwise h hstuck
      have hlt := h.lt
      obtain ⟨n, rfl⟩ := Nat.exists_eq_add_one.2 (show 0 < bound by omega)
      exact hstuck.cases otherwise
    unfold Production.cases
    refine Agree.bind_peekKind ?_
    split
    · next hkind =>
      refine Agree.bind_advance ho.ready.upto (hkind.trans_ne (by decide)) fun c₁ h₁ => ?_
      refine (hsub.rule _ (by decide) (ho.trans h₁)).bind fun pattern c₂ h => ?_
      have h₂ := h₁.trans_upto h
      refine (caseBody_agrees hsub (ho.trans h₂)).bind_stuck (fun body c₃ h => ?_)
        fun e body c₃ h => ?_
      · refine Agree.bind_skipNewlines ?_
        exact (hnext otherwise (h₂.trans_upto h)).bind fun _ c₄ h₄ => Agree.pure h₄
      · exact Stalls.bind_ok h.skipNewlines (Stalls.bind_error (hstuck otherwise h₁ h))
    · next hkind =>
      split
      · exact Agree.bind_peek Agree.fail
      · refine Agree.bind_advance ho.ready.upto (hkind.trans_ne (by decide)) fun c₁ h₁ => ?_
        refine (caseBody_agrees hsub (ho.trans h₁)).bind_stuck (fun body c₂ h => ?_)
          fun e body c₂ h => ?_
        · exact Agree.bind_skipNewlines (hnext (some body) (h₁.trans_upto h))
        · exact Stalls.bind_ok h.skipNewlines (.inl (hstuck (some body) h₁ h))
    · next hkind =>
      exact Agree.bind_advance ho.upto (hkind.trans_ne (by decide)) fun c₁ h₁ => Agree.pure h₁
    · exact Agree.failExpecting

theorem switch_same (hsub : Nests c f g) (hc : c.Ready) (hne : c.current.kind ≠ .eof)
    (hbound : c.upcoming.length < bound) :
    Same (fun _ => c.Upto) c (switch bound f) (switch bound g) := by
  refine (Agree.advance hc.upto hne).bind fun first c₁ h₁ => ?_
  refine (hsub.expr h₁).bind fun subject c₂ h₂ => Agree.bind_newlines ?_
  split
  · exact Agree.failExpecting
  · have h₃ := h₂.trans_upto h₂.ready.upto_behindNewlines
    have hlt := h₃.lt
    exact (cases_same none hsub h₃ (by omega)).bind fun _ c₄ h₄ => Agree.spanned fun _ => h₄.upto

theorem importAs_same (hsub : Nests c f g) (hc : c.Ready) (hne : c.current.kind ≠ .eof) :
    Same (fun _ => c.Upto) c (importAs f) (importAs g) := by
  refine (Agree.advance hc.upto hne).bind fun first c₁ h₁ => ?_
  refine (hsub.expr h₁).bind fun lib c₂ h₂ => ?_
  refine Agree.bind_expect h₂.upto (by decide) fun c₃ h₃ => ?_
  exact (ident_same h₃.upto).bind fun name c₄ h₄ => Agree.spanned fun _ => h₄.upto

/-! ## Expressions -/

theorem atom_same (hsub : Nests c f g) (hc : c.Ready) (hbound : c.upcoming.length < bound) :
    Same (fun _ => c.Upto) c (atom bound f) (atom bound g) := by
  refine Agree.bind_peekKind ?_
  split
  case h_1 hkind | h_2 hkind => exact number_same hc (hkind.trans_ne (by decide))
  case h_3 hkind => exact Agree.bind_peek (literal_same _ hc (hkind.trans_ne (by decide)))
  case h_4 hkind | h_5 hkind | h_6 hkind => exact literal_same _ hc (hkind.trans_ne (by decide))
  case h_7 => exact nameOrAssignment_same hsub hc hbound
  case h_8 hkind => exact group_same hsub hc (hkind.trans_ne (by decide))
  case h_9 hkind => exact list_same hsub hc (hkind.trans_ne (by decide)) hbound
  case h_10 hkind => exact object_same hsub hc (hkind.trans_ne (by decide)) hbound
  case h_11 hkind => exact conditional_same hsub hc (hkind.trans_ne (by decide)) hbound
  case h_12 hkind => exact forLoop_same hsub hc (hkind.trans_ne (by decide))
  case h_13 hkind => exact whileLoop_same hsub hc (hkind.trans_ne (by decide))
  case h_14 hkind => exact function_same false hsub hc.upto (hkind.trans_ne (by decide)) hbound
  case h_15 hkind => exact switch_same hsub hc (hkind.trans_ne (by decide)) hbound
  case h_16 hkind => exact importAs_same hsub hc (hkind.trans_ne (by decide))
  case h_17 hkind | h_18 hkind => exact visible_same hsub hc (hkind.trans_ne (by decide)) hbound
  case h_19 => exact Agree.failExpecting

theorem suffixes_same : ∀ {rest : Nat} {o c : Cursor} (target : Node), Nests o f g → o.Upto c →
    o.upcoming.length < bound → c.upcoming.length < rest →
    Same (fun _ => c.Upto) c (suffixes bound f rest target) (suffixes bound g rest target)
  | 0, _, _, _, _, _, _, hrest => absurd hrest (Nat.not_lt_zero _)
  | rest + 1, o, c, target, hsub, ho, hbound, hrest => by
    unfold suffixes
    have hagain : ∀ {c' : Cursor} (target : Node), c.Past c' →
        Same (fun _ => c.Upto) c' (suffixes bound f rest target)
          (suffixes bound g rest target) := by
      intro c' target h
      have hlt := h.lt
      exact (suffixes_same target hsub (ho.trans h.upto) hbound (by omega)).upto h.upto
    refine Agree.ifAccept ho.ready.upto (by decide) (fun c₁ h₁ => ?_) ?_
    · exact (ident_same h₁.upto).bind fun name c₂ h₂ => hagain _ h₂
    · refine Agree.ifAccept ho.ready.upto (by decide) (fun c₁ h₁ => ?_) (Agree.pure ho.ready.upto)
      have hpast := ho.trans_past h₁
      have hlt := hpast.lt
      have hargs := sequence_same .rightParen h₁.ready (hsub.reads_expr hpast)
        (show _ < bound by omega)
      refine (hargs.past h₁).bind fun args c₂ h₂ => ?_
      exact Agree.bind (T := fun _ c' => c' = c₂) (Agree.of_run rfl rfl) fun span c₃ h₃ =>
        hagain _ (by rw [h₃]; exact h₂)

theorem power_same (hsub : Nests c f g) (hc : c.Ready) (hbound : c.upcoming.length < bound) :
    Same (fun _ => c.Upto) c (power bound f) (power bound g) := by
  have hbase : Same (fun _ => c.Upto) c (suffixed bound f) (suffixed bound g) := by
    refine (atom_same hsub hc hbound).bind fun target c₁ h₁ => ?_
    have hle := h₁.le
    exact (suffixes_same target hsub h₁ hbound (by omega)).upto h₁
  refine hbase.bind fun base c₁ h₁ => ?_
  refine Agree.ifAccept h₁ (by decide) (fun c₂ h₂ => ?_) (Agree.pure h₁)
  exact ((hsub.rule _ (by decide) h₂).past h₂).bind fun exponent c₃ h₃ => Agree.pure h₃.upto

theorem signed_reads (hsub : Nests c f g) (hbound : c.upcoming.length < bound) :
    Reads c (signed bound f) (signed bound g) := by
  intro c₁ h₁
  refine Agree.bind_peek ?_
  have hsign : c₁.current.kind ≠ .eof → ∀ op : UnaryOp, Same (fun _ => c₁.Upto) c₁
      (do
        discard advance
        let operand ← f .signed
        return Node.mk (.unary op operand) (← spanFrom c₁.current.span))
      (do
        discard advance
        let operand ← g .signed
        return Node.mk (.unary op operand) (← spanFrom c₁.current.span)) := by
    intro hne op
    refine Agree.bind_advance h₁.ready.upto hne fun c₂ h₂ => ?_
    have hoperand := (hsub.rule .signed (by decide) (h₁.trans_past h₂)).past h₂
    exact hoperand.bind fun operand c₃ h₃ => Agree.spanned fun _ => h₃.upto
  split
  · next hkind => exact hsign (hkind.trans_ne (by decide)) _
  · next hkind => exact hsign (hkind.trans_ne (by decide)) _
  · have hle := h₁.le
    exact power_same (hsub.mono h₁) h₁.ready (by omega)

theorem negation_reads (hsub : Nests c f g) (hbound : c.upcoming.length < bound) :
    Reads c (negation bound f) (negation bound g) := by
  intro c₁ h₁
  refine Agree.bind_peek ?_
  split
  · next hkind =>
    refine Agree.bind_advance h₁.ready.upto (hkind.trans_ne (by decide)) fun c₂ h₂ => ?_
    have hoperand := (hsub.rule .negation (by decide) (h₁.trans_past h₂)).past h₂
    exact hoperand.bind fun operand c₃ h₃ => Agree.spanned fun _ => h₃.upto
  · have hchain : Reads c _ _ := chain_reads .product (signed_reads hsub hbound) hbound
    exact chain_reads .comparison (chain_reads .sum hchain hbound) hbound h₁

theorem expr_reads (hsub : Nests c f g) (hbound : c.upcoming.length < bound) :
    Reads c (expr bound f) (expr bound g) := by
  intro c₁ h₁
  refine Agree.bind_peekKind ?_
  split
  · next hkind =>
    exact declaration_same false (hsub.mono h₁) h₁.ready.upto (hkind.trans_ne (by decide))
  · have hchain : Reads c _ _ := chain_reads .conjunction (negation_reads hsub hbound) hbound
    exact chain_reads .disjunction hchain hbound h₁

/-! ## Statements -/

theorem statement_reads (hsub : Nests c f g) (hbound : c.upcoming.length < bound) :
    Reads c (statement bound f) (statement bound g) := by
  intro c₁ h₁
  refine Agree.bind_peek ?_
  split
  · next hkind =>
    refine Agree.bind_advance h₁.ready.upto (hkind.trans_ne (by decide)) fun c₂ h₂ => ?_
    refine Agree.bind_peekKind ?_
    split
    · exact Agree.spanned fun _ => h₂.upto
    · have hvalue := expr_reads hsub hbound (h₁.trans h₂.upto)
      exact (hvalue.upto h₂.upto).bind fun value c₃ h₃ => Agree.spanned fun _ => h₃
  · next hkind => exact literal_same _ h₁.ready (hkind.trans_ne (by decide))
  · next hkind => exact literal_same _ h₁.ready (hkind.trans_ne (by decide))
  · exact expr_reads hsub hbound h₁

/-- **Where a statement fails.**  One parser reports its error; the other one is stuck in front of
the statement, which starts with a token that no list goes on with. -/
theorem furtherStatements_agrees {statement statement' : Parse Node} :
    ∀ {bound : Nat} {c : Cursor}, c.Ready → Reads c statement statement' →
      c.upcoming.length < bound →
      Agree (fun _ => c.Upto) Stuck c (furtherStatements true statement bound)
        (furtherStatements false statement' bound)
  | 0, _, _, _, hbound => absurd hbound (Nat.not_lt_zero _)
  | bound + 1, c, hc, hstatement, hbound => by
    unfold furtherStatements
    have h₁ := hc.upto_behindNewlines
    refine Agree.bind_newlines ?_
    split
    · exact Agree.pure h₁
    · next hnewlines =>
      refine Agree.bind_peekKind ?_
      split
      · exact Agree.pure h₁
      · next hcloses =>
        refine Agree.bind_get ?_
        cases hstatement h₁ with
        | read hp hq h₂ =>
          rw [hp, hq]
          have hpast := (hc.past_behindNewlines hnewlines).trans_upto h₂
          have hlt := hpast.lt
          refine Agree.bind_set ?_
          have hrest := furtherStatements_agrees hpast.ready
            (fun h => hstatement (hpast.upto.trans h)) (show _ < bound by omega)
          refine hrest.bind_stuck (fun rest c₃ h₃ => Agree.pure (hpast.upto.trans h₃)) ?_
          exact fun e rest c₃ hstuck => .inr ⟨_, c₃, rfl, hstuck⟩
        | failed hp hq =>
          rw [hp, hq]
          have hnewline := (Cursor.behindNewlines_spec hc.ends).2.2.1
          exact .stuck rfl rfl ⟨rfl, hnewline, Bool.eq_false_iff.2 hcloses⟩
        | stuck _ _ h => exact h.elim

theorem statements_agrees (hsub : Nests c f g) (hc : c.Ready) (hbound : c.upcoming.length < bound) :
    Agree (fun _ => c.Upto) Stuck c (statements bound f true) (statements bound g false) := by
  have hstatement : Reads c (statement bound f) (statement bound g) := statement_reads hsub hbound
  have h₁ := hc.upto_behindNewlines
  refine Agree.bind_peek (Agree.bind_skipNewlines (Agree.bind_peekKind ?_))
  refine Agree.bind_ite (fun _ => Agree.pure h₁) (fun _ => ((hstatement h₁).upto h₁).map)
    fun leading c₂ h₂ => ?_
  have hle := h₂.le
  have hfurther := furtherStatements_agrees h₂.ready (fun h => hstatement (h₂.trans h))
    (show _ < bound by omega)
  refine hfurther.bind_stuck (fun further c₃ h₃ => ?_) fun e further c₃ hstuck => ?_
  · exact Agree.spanned fun _ => h₂.trans h₃
  · exact .inr ⟨_, c₃, rfl, hstuck⟩

/-! ## Programs -/

/-- All rules, by induction on the bound: a rule nests others only behind a token it has read. -/
theorem Rule.parseWithin_agrees : ∀ (bound : Nat) {c : Cursor}, c.Ready →
    c.upcoming.length < bound →
    (∀ rule : Rule, rule ≠ .statements →
      Same (fun _ => c.Upto) c (parseWithin true bound rule) (parseWithin false bound rule)) ∧
    Agree (fun _ => c.Upto) Stuck c (parseWithin true bound .statements)
      (parseWithin false bound .statements)
  | 0, _, _, hbound => absurd hbound (Nat.not_lt_zero _)
  | bound + 1, c, hc, hbound => by
    have hsub : Nests c (parseWithin true bound) (parseWithin false bound) := by
      refine ⟨fun rule c' hrule hpast => ?_, fun hpast => ?_⟩
      · have hlt := hpast.lt
        exact (parseWithin_agrees bound hpast.ready (by omega)).1 rule hrule
      · have hlt := hpast.lt
        exact (parseWithin_agrees bound hpast.ready (by omega)).2
    refine ⟨fun rule hrule => ?_, statements_agrees hsub hc hbound⟩
    cases rule with
    | expr => exact expr_reads hsub hbound hc.upto
    | statement => exact statement_reads hsub hbound hc.upto
    | statements => exact absurd rfl hrule
    | negation => exact negation_reads hsub hbound hc.upto
    | signed => exact signed_reads hsub hbound hc.upto

/-- A whole program: where its statements are stuck, there is more to read, and the error is
reported. -/
theorem Rule.program_same (hc : c.Ready) :
    Same (fun _ c' => c'.deferred = none) c (program true) (program false) := by
  have hroot : Agree (fun _ => c.Upto) Stuck c (Rule.statements.parse true)
      (Rule.statements.parse false) :=
    Agree.bind_get (parseWithin_agrees _ hc (by omega)).2
  refine hroot.bind_stuck (fun root c₁ h₁ => Agree.bind_peekKind ?_) fun e root c₁ hstuck => ?_
  · split
    · exact Agree.pure h₁.ready.deferred
    · exact Agree.failHere
  · refine Stalls.bind_ok rfl ?_
    rw [if_neg (hstuck.ne rfl)]
    exact .inl (hstuck.failHere _)

/-- The tokens of a source end in `eof`. -/
theorem Scanner.ends_of_steps (s : Scanner) : ∀ {tokens : List Token},
    s.steps.mapM id = Except.ok tokens → ∃ (before : List Token) (last : Token),
      tokens = before ++ [last] ∧ last.kind = .eof := by
  induction s using Scanner.steps.induct with
  | case1 s hrest =>
    intro tokens hrun
    have hsteps : s.steps = [.ok s.skipFiller.endToken] := by
      rw [steps]
      split
      · rfl
      · next hcons => rw [hrest] at hcons; cases hcons
    rw [hsteps] at hrun
    cases hrun
    exact ⟨[], _, rfl, rfl⟩
  | case2 s c cs hrest lexeme =>
    rename_i ih
    intro tokens hrun
    have hsteps : s.steps = s.skipFiller.outcome lexeme :: (s.skipFiller.past lexeme).steps := by
      rw [steps]
      split
      · next hnil => rw [hrest] at hnil; cases hnil
      · next hcons =>
        rw [hrest] at hcons
        cases hcons
        rfl
    rw [hsteps, List.mapM_cons] at hrun
    cases hfirst : s.skipFiller.outcome lexeme with
    | error e =>
      rw [hfirst] at hrun
      cases hrun
    | ok first =>
      rw [hfirst] at hrun
      cases hfurther : (s.skipFiller.past lexeme).steps.mapM id with
      | error e =>
        rw [hfurther] at hrun
        cases hrun
      | ok further =>
        rw [hfurther] at hrun
        cases hrun
        obtain ⟨before, last, hlast, heof⟩ := ih hfurther
        exact ⟨first :: before, last, by rw [hlast]; rfl, heof⟩

/-- The cursor on the first token of a source is ready. -/
theorem Cursor.ready_start {source : Source} {first : Token} {rest : List Token}
    (h : tokenize source = .ok (first :: rest)) : (Cursor.start first rest).Ready := by
  obtain ⟨before, last, htokens, heof⟩ := Scanner.ends_of_steps _ h
  refine ⟨rfl, ?_⟩
  show ((first :: rest).getLast _).kind = .eof
  simp only [htokens, List.getLast_append, List.getLast_singleton]
  exact heof

/-- **Rewinding changes nothing.**  A source is read as by the parser that reports the error of a
statement as soon as it is met: both give the same tree or the same error.  The bound is never too
low, and no program is accepted with an error waiting. -/
theorem parse_eq_parse_without_rewinding {source : Source} {tokens : List Token}
    (h : tokenize source = .ok tokens) :
    Node.parse tokens = (Rule.program false).run tokens ∧
      Node.parse tokens ≠ .error .exhausted ∧
      ∀ (first : Token) (rest : List Token) (root : Node) (c : Cursor), tokens = first :: rest →
        Rule.program true (.start first rest) = .ok (root, c) → c.deferred = none := by
  obtain ⟨before, last, htokens, -⟩ := Scanner.ends_of_steps _ h
  cases tokens with
  | nil => exact absurd htokens.symm (List.append_ne_nil_of_right_ne_nil _ (by simp))
  | cons first rest =>
    have hrun : ∀ rewinds : Bool, (Rule.program rewinds).run (first :: rest) =
        (Rule.program rewinds (.start first rest)).map (·.1) := fun _ => rfl
    rw [Node.parse, hrun, hrun]
    cases Rule.program_same (Cursor.ready_start h) with
    | read hp hq hdeferred =>
      rw [hp, hq]
      refine ⟨rfl, (fun hexhausted => by cases hexhausted), fun _ _ root c heq hrun' => ?_⟩
      cases heq
      rw [hp] at hrun'
      cases hrun'
      exact hdeferred
    | failed hp hq =>
      rw [hp, hq]
      refine ⟨rfl, (fun hexhausted => by cases hexhausted), fun _ _ root c heq hrun' => ?_⟩
      cases heq
      rw [hp] at hrun'
      cases hrun'
    | stuck _ _ hfalse => exact hfalse.elim

/-- In this source the list inside the `if` goes back in front of the parenthesis. -/
theorem stray_parenthesis_read_without_rewinding : ∃ tokens : List Token,
    tokenize ⟨"main", "if a then\nb\n)\nend"⟩ = .ok tokens ∧
      Node.parse tokens = (Rule.program false).run tokens := by
  have hread : (tokenize ⟨"main", "if a then\nb\n)\nend"⟩).toOption.isSome = true := by cbv
  cases htokens : tokenize ⟨"main", "if a then\nb\n)\nend"⟩ with
  | error e =>
    rw [htokens] at hread
    cases hread
  | ok tokens => exact ⟨tokens, rfl, (parse_eq_parse_without_rewinding htokens).1⟩

end BpScript
