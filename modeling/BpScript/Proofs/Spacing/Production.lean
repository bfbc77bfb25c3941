import BpScript.Proofs.Spacing.Together

/-!
# Productions side by side

Every production reads the same from cursors that are abreast, under the assumption that the rules
it nests do.  All rules but `statements` read a token that is not a newline, so the number of these
tokens bounds nesting and repetition on both sides, whatever the bounds of the two parsers are.

* `Subrules` — the assumption about the nested rules.
* `Rule.parseWithin_together` — all rules, by induction on the number of tokens.
* `Rule.program_together` — whole programs.
-/

namespace BpScript

open Parse Production

/-- The rules that a production nests, where at most `n` tokens that are not newlines are left. -/
structure Subrules (n : Nat) (f g : Rule → Parse Node) : Prop where
  consumes {rule : Rule} : rule ≠ .statements → Consumes n (f rule) (g rule)
  statements {m : Nat} {c d : Cursor} : m ≤ n → c.Loose m d →
    Together (Cursor.Abreast m) c d (f .statements) (g .statements)

variable {n m bound bound' : Nat} {c d : Cursor} {f g : Rule → Parse Node}

namespace Subrules

theorem mono (h : Subrules n f g) (hm : m ≤ n) : Subrules m f g :=
  ⟨fun hrule => Consumes.mono (h.consumes hrule) hm, fun hle => h.statements (hle.trans hm)⟩

theorem expr (h : Subrules n f g) : Consumes n (f .expr) (g .expr) :=
  h.consumes (by decide)

theorem statement (h : Subrules n f g) : Consumes n (f .statement) (g .statement) :=
  h.consumes (by decide)

end Subrules

theorem TokenKind.isSolid_symbol (symbol : Symbol) : (TokenKind.symbol symbol).IsSolid :=
  ⟨nofun, nofun⟩

theorem AssignOp.isSolid_of_ofToken? {kind : TokenKind} {op : AssignOp}
    (h : AssignOp.ofToken? kind = some op) : kind.IsSolid := by
  constructor <;> (rintro rfl; cases h)

theorem Level.isSolid_of_operator? {level : Level} {kind : TokenKind} {op : BinaryOp}
    (h : level.operator? kind = some op) : kind.IsSolid := by
  constructor <;> (rintro rfl; cases h)

/-! ## Repetition -/

theorem itemsUntil_together {α : Type} [Erasable α] {item item' : Parse α} (close : Symbol) :
    ∀ {bound bound' n : Nat} {c d : Cursor}, c.Abreast n d → Consumes n item item' →
      n ≤ bound → n ≤ bound' → Together (Cursor.Abreast (n - 1)) c d
        (itemsUntil close item bound) (itemsUntil close item' bound')
  | 0, _, _, _, _, h, _, hbound, _ => absurd hbound h.not_le_zero
  | _, 0, _, _, _, h, _, _, hbound' => absurd hbound' h.not_le_zero
  | bound + 1, bound' + 1, n, c, d, h, hitem, hbound, hbound' => by
    unfold itemsUntil
    refine (hitem (Nat.le_refl n) h).bind fun first first' c₁ d₁ hfirst h₁ => ?_
    refine Together.bind_skipNewlines h₁.loose fun c₂ d₂ h₂ => ?_
    refine Together.ifAccept h₂.toAbreast (by decide) (fun c₃ d₃ h₃ => ?_) ?_
    · refine Together.bind_skipNewlines h₃.loose fun c₄ d₄ h₄ => ?_
      have hrest := itemsUntil_together close h₄.toAbreast (hitem.mono (by omega))
        (show _ ≤ bound by omega) (show _ ≤ bound' by omega)
      exact hrest.bind fun rest rest' c₅ d₅ hrest h₅ =>
        Together.pure (hfirst.cons hrest) (h₅.mono (by omega))
    · refine Together.bind_expect h₂.toAbreast (TokenKind.isSolid_symbol close) fun c₃ d₃ h₃ => ?_
      exact Together.pure (hfirst.cons (.refl [])) (h₃.mono (by omega))

/-- A sequence reads at least the bracket that closes it. -/
theorem sequence_together {α : Type} [Erasable α] {item item' : Parse α} (close : Symbol)
    (h : c.Abreast n d) (hitem : Consumes n item item') (hbound : n ≤ bound)
    (hbound' : n ≤ bound') : Together (Cursor.Abreast (n - 1)) c d (sequence bound close item)
      (sequence bound' close item') := by
  refine Together.bind_skipNewlines h.loose fun c₁ d₁ h₁ => ?_
  refine Together.ifAccept h₁.toAbreast (TokenKind.isSolid_symbol close) (fun c₂ d₂ h₂ => ?_) ?_
  · exact Together.pure (.refl []) h₂
  · exact itemsUntil_together close h₁.toAbreast hitem hbound hbound'

theorem chainFrom_together {operand operand' : Parse Node} (level : Level) :
    ∀ {bound bound' n : Nat} {c d : Cursor} {lhs lhs' : Node}, SameShape lhs lhs' →
      c.Abreast n d → Consumes n operand operand' → n ≤ bound → n ≤ bound' →
      Together (Cursor.Abreast n) c d (chainFrom level operand bound lhs)
        (chainFrom level operand' bound' lhs')
  | 0, _, _, _, _, _, _, _, h, _, hbound, _ => absurd hbound h.not_le_zero
  | _, 0, _, _, _, _, _, _, h, _, _, hbound' => absurd hbound' h.not_le_zero
  | bound + 1, bound' + 1, n, c, d, lhs, lhs', hlhs, h, hoperand, hbound, hbound' => by
    unfold chainFrom
    refine Together.bind_peekKind h rfl ?_
    split
    · exact Together.pure hlhs h
    · next op hop =>
      refine Together.bind_advance h (Level.isSolid_of_operator? hop) fun c₁ d₁ h₁ => ?_
      refine (hoperand (Nat.sub_le n 1) h₁).bind fun rhs rhs' c₂ d₂ hrhs h₂ => ?_
      have hnode : SameShape (Node.mk (.binary lhs op rhs) (lhs.span.through rhs.span))
          (Node.mk (.binary lhs' op rhs') (lhs'.span.through rhs'.span)) :=
        .mk (by simp only [Form.erase, hlhs.node, hrhs.node])
      exact (chainFrom_together level hnode h₂ (hoperand.mono (by omega)) (by omega)
        (by omega)).widen (by omega)

theorem chain_consumes {operand operand' : Parse Node} (level : Level)
    (hoperand : Consumes n operand operand') (hbound : n ≤ bound) (hbound' : n ≤ bound') :
    Consumes n (chain bound level operand) (chain bound' level operand') := by
  intro m c d hm h
  refine (hoperand hm h).bind fun lhs lhs' c₁ d₁ hlhs h₁ => ?_
  exact chainFrom_together level hlhs h₁ (hoperand.mono (by omega)) (by omega) (by omega)

/-! ## Names, literals and brackets -/

theorem ident_together (h : c.Abreast n d) :
    Together (Cursor.Abreast (n - 1)) c d ident ident :=
  (Together.expectAmong h (by decide)).bind fun _ _ _ _ htoken h₁ =>
    Together.pure htoken.identOf h₁

/-- Each segment is a point and a name, which are the same on both sides. -/
theorem segments_together : ∀ {bound bound' n : Nat} {c d : Cursor}, c.Abreast n d → n ≤ bound →
    n ≤ bound' → Together (Cursor.Abreast n) c d (segments bound) (segments bound')
  | 0, _, _, _, _, h, hbound, _ => absurd hbound h.not_le_zero
  | _, 0, _, _, _, h, _, hbound' => absurd hbound' h.not_le_zero
  | bound + 1, bound' + 1, n, c, d, h, hbound, hbound' => by
    unfold segments
    refine Together.bind_get ?_
    by_cases hdot : c.current.kind = .symbol .dot
    · have hsolid : c.current.kind.IsSolid := hdot ▸ TokenKind.isSolid_symbol .dot
      obtain ⟨hkind, -, h₁⟩ := h.solid_token hsolid
      obtain ⟨hc, hd⟩ := h.upcoming_eq hsolid
      rw [← hkind, hdot, hc, hd]
      show Together (Cursor.Abreast n) c d (if c.advance.current.kind = .ident then _ else _)
        (if d.advance.current.kind = .ident then _ else _)
      by_cases hident : c.advance.current.kind = .ident
      · obtain ⟨hkind₁, hlexeme, h₂⟩ := h₁.solid_token (hident ▸ by decide)
        rw [if_pos hident, if_pos (hkind₁ ▸ hident)]
        refine Together.bind_discard_advance (Together.bind_discard_advance ?_)
        refine (segments_together h₂ (by omega) (by omega)).bind fun rest rest' c₃ d₃ hrest h₃ => ?_
        exact Together.pure (.cons (SameShape.token hkind₁ hlexeme).identOf hrest)
          (h₃.mono (by omega))
      · rw [if_neg hident, if_neg fun h => hident ((h₁.kind_iff (by decide)).2 h)]
        exact Together.pure (.refl []) h
    · have hdot' := fun hd => hdot ((h.kind_iff (TokenKind.isSolid_symbol .dot)).2 hd)
      split
      · next hc _ => exact absurd hc hdot
      · split
        · next hd _ => exact absurd hd hdot'
        · exact Together.pure (.refl []) h

theorem literal_together (form : Form) (h : c.Abreast n d) (hsolid : c.current.kind.IsSolid) :
    Together (Cursor.Abreast (n - 1)) c d (literal form) (literal form) :=
  (Together.advance h hsolid).bind fun _ _ _ _ _ h₁ => Together.pure (.mk rfl) h₁

theorem number_together (h : c.Abreast n d) (hsolid : c.current.kind.IsSolid) :
    Together (Cursor.Abreast (n - 1)) c d number number := by
  refine (Together.advance h hsolid).bind fun token token' c₁ d₁ htoken h₁ => ?_
  rw [htoken.lexeme]
  split
  · exact Together.pure (.mk rfl) h₁
  · exact Together.fail

theorem group_together (hsub : Subrules (n - 1) f g) (h : c.Abreast n d)
    (hsolid : c.current.kind.IsSolid) :
    Together (Cursor.Abreast (n - 1)) c d (group f) (group g) := by
  refine Together.bind_advance h hsolid fun c₁ d₁ h₁ => ?_
  refine (hsub.expr (Nat.le_refl _) h₁).bind fun inner inner' c₂ d₂ hinner h₂ => ?_
  exact Together.bind_expect h₂ (by decide) fun c₃ d₃ h₃ =>
    Together.pure hinner (h₃.mono (by omega))

theorem list_together (hsub : Subrules (n - 1) f g) (h : c.Abreast n d)
    (hsolid : c.current.kind.IsSolid) (hbound : n ≤ bound) (hbound' : n ≤ bound') :
    Together (Cursor.Abreast (n - 1)) c d (list bound f) (list bound' g) := by
  refine (Together.advance h hsolid).bind fun first first' c₁ d₁ hfirst h₁ => ?_
  have hitems := sequence_together .rightSquare h₁ hsub.expr (show _ ≤ bound by omega)
    (show _ ≤ bound' by omega)
  refine hitems.bind fun items items' c₂ d₂ hitems h₂ => ?_
  exact Together.spanned (fun _ _ => .mk (by simp only [Form.erase, hitems.nodes]))
    (h₂.mono (by omega))

theorem entry_consumes (hsub : Subrules n f g) : Consumes n (entry f) (entry g) := by
  intro m c d hm h
  have hentry : c.current.kind.IsSolid → Together (Cursor.Abreast (m - 1)) c d
      (do
        let key ← advance
        discard <| expect (.symbol .colon)
        return (identOf key, ← f .expr))
      (do
        let key ← advance
        discard <| expect (.symbol .colon)
        return (identOf key, ← g .expr)) := by
    intro hsolid
    refine (Together.advance h hsolid).bind fun key key' c₁ d₁ hkey h₁ => ?_
    refine Together.bind_expect h₁ (by decide) fun c₂ d₂ h₂ => ?_
    exact (hsub.expr (by omega) h₂).bind fun value value' c₃ d₃ hvalue h₃ =>
      Together.pure (hkey.identOf.pair hvalue) (h₃.mono (by omega))
  refine Together.bind_peekKind h rfl ?_
  split
  · next hkind => exact hentry (hkind ▸ by decide)
  · next hkind => exact hentry (hkind ▸ by decide)
  · exact Together.failExpecting

theorem object_together (hsub : Subrules (n - 1) f g) (h : c.Abreast n d)
    (hsolid : c.current.kind.IsSolid) (hbound : n ≤ bound) (hbound' : n ≤ bound') :
    Together (Cursor.Abreast (n - 1)) c d (object bound f) (object bound' g) := by
  refine (Together.advance h hsolid).bind fun first first' c₁ d₁ hfirst h₁ => ?_
  have hentries := sequence_together .rightBrace h₁ (entry_consumes hsub)
    (show _ ≤ bound by omega) (show _ ≤ bound' by omega)
  refine hentries.bind fun entries entries' c₂ d₂ hentries h₂ => ?_
  exact Together.spanned (fun _ _ => .mk (by simp only [Form.erase, hentries.entries]))
    (h₂.mono (by omega))

/-! ## Assignments -/

theorem declaration_together (isPublic : Bool) (hsub : Subrules (n - 1) f g) (h : c.Abreast n d)
    (hsolid : c.current.kind.IsSolid) :
    Together (Cursor.Abreast (n - 1)) c d (declaration f isPublic) (declaration g isPublic) := by
  refine (Together.advance h hsolid).bind fun first first' c₁ d₁ hfirst h₁ => ?_
  refine (ident_together h₁).bind fun name name' c₂ d₂ hname h₂ => ?_
  refine Together.bind_expect h₂ (by decide) fun c₃ d₃ h₃ => ?_
  refine (hsub.expr (by omega) h₃).bind fun value value' c₄ d₄ hvalue h₄ => ?_
  exact Together.spanned (fun _ _ => .mk (by simp only [Form.erase, hname.ident, hvalue.node]))
    (h₄.mono (by omega))

theorem nameOrAssignment_together (hsub : Subrules (n - 1) f g) (h : c.Abreast n d)
    (hbound : n ≤ bound) (hbound' : n ≤ bound') :
    Together (Cursor.Abreast (n - 1)) c d (nameOrAssignment bound f)
      (nameOrAssignment bound' g) := by
  refine (ident_together h).bind fun name name' c₁ d₁ hname h₁ => ?_
  refine Together.bind_peekKind h₁ rfl ?_
  split
  · next op hop =>
    refine Together.bind_advance h₁ (AssignOp.isSolid_of_ofToken? hop) fun c₂ d₂ h₂ => ?_
    refine (hsub.expr (by omega) h₂).bind fun value value' c₃ d₃ hvalue h₃ => ?_
    exact Together.pure (.mk (by simp only [Form.erase, hname.ident, hvalue.node]))
      (h₃.mono (by omega))
  · refine Together.bind_get ?_
    have haccess : ∀ c₂ d₂ : Cursor, Together (Cursor.Abreast (n - 1)) c₂ d₂
        (do set c₁; return Node.mk (.access name) name.span)
        (do set d₁; return Node.mk (.access name') name'.span) := fun c₂ d₂ =>
      Together.bind_set (Together.pure (.mk (by simp only [Form.erase, hname.ident])) h₁)
    refine (segments_together h₁ (by omega) (by omega)).bind fun path path' c₂ d₂ hpath h₂ => ?_
    refine Together.bind_peekKind h₂ ?_ ?_
    · cases path' <;> rfl
    cases path with
    | nil =>
      cases path' with
      | nil => exact haccess c₂ d₂
      | cons => exact absurd hpath.length_eq (by simp)
    | cons segment path =>
      cases path' with
      | nil => exact absurd hpath.length_eq (by simp)
      | cons segment' path' =>
        cases hop : AssignOp.ofToken? c₂.current.kind with
        | none => exact haccess c₂ d₂
        | some op =>
          refine Together.bind_advance h₂ (AssignOp.isSolid_of_ofToken? hop) fun c₃ d₃ h₃ => ?_
          refine (hsub.expr (by omega) h₃).bind fun value value' c₄ d₄ hvalue h₄ => ?_
          have hidents := (hname.cons hpath).idents
          exact Together.pure (.mk (by simp only [Form.erase, hidents, hvalue.node]))
            (h₄.mono (by omega))

/-! ## Bodies

A newline makes a body a block.  At the end it may be there on one side only, but neither a block
nor a statement can be read there.
-/

theorem blockUntilEnd_consumes (hsub : Subrules n f g) :
    ConsumesLoose n (blockUntilEnd f) (blockUntilEnd g) := by
  intro m c d hm h
  refine (hsub.statements hm h).bind fun block block' c₁ d₁ hblock h₁ => ?_
  exact Together.bind_expect h₁ (by decide) fun c₂ d₂ h₂ => Together.pure hblock h₂

theorem body_consumes (hsub : Subrules n f g) : Consumes n (body f) (body g) := by
  intro m c d hm h
  refine Together.ifNewline h (fun _ _ _ hle h => ?_) (fun _ _ _ hle h => ?_)
  · refine (blockUntilEnd_consumes hsub (hle.trans hm) h).bind fun _ _ _ _ hblock h₁ => ?_
    exact Together.pure (hblock.bodyMk true) h₁
  · refine (hsub.statement (hle.trans hm) h).bind fun _ _ _ _ hnode h₁ => ?_
    exact Together.pure (hnode.bodyMk false) h₁

theorem elseBody_together (hsub : Subrules (n - 1) f g) (h : c.Abreast n d)
    (hsolid : c.current.kind.IsSolid) :
    Together (Cursor.Abreast (n - 1)) c d (elseBody f) (elseBody g) := by
  refine Together.bind_advance h hsolid fun c₁ d₁ h₁ => ?_
  exact (body_consumes hsub (Nat.le_refl _) h₁).widen (by omega)

theorem arms_consumes : ∀ {bound bound' n : Nat}, Subrules n f g → n ≤ bound → n ≤ bound' →
    Consumes n (arms f bound) (arms g bound')
  | 0, _, _, _, hbound, _ => fun _ _ _ hm h =>
    absurd (hm.trans hbound) h.not_le_zero
  | _, 0, _, _, _, hbound' => fun _ _ _ hm h =>
    absurd (hm.trans hbound') h.not_le_zero
  | bound + 1, bound' + 1, n, hsub, hbound, hbound' => by
    intro m c d hm h
    unfold arms
    -- the next condition is behind the `then` of this one
    have hnext : Consumes (m - 1) (arms f bound) (arms g bound') :=
      arms_consumes (hsub.mono (by omega)) (by omega) (by omega)
    have helse : ∀ {arm arm' : Node × Body} {m' : Nat} {c' d' : Cursor}, SameShape arm arm' →
        m' ≤ m → c'.Abreast m' d' → c'.current.kind = .keyword .else_ →
        Together (Cursor.Abreast (m' - 1)) c' d' (do return ([arm], some (← elseBody f)))
          (do return ([arm'], some (← elseBody g))) := by
      intro arm arm' m' c' d' harm hle h' hkind
      have hbody := elseBody_together (hsub.mono (by omega)) h' (hkind ▸ by decide)
      exact hbody.bind fun otherwise otherwise' c₁ d₁ hotherwise h₁ =>
        Together.pure ((harm.cons (.refl [])).pair hotherwise.some) h₁
    refine (hsub.expr hm h).bind fun condition condition' c₁ d₁ hcondition h₁ => ?_
    refine Together.bind_expect h₁ (by decide) fun c₂ d₂ h₂ => ?_
    refine (Together.ifNewline h₂ (fun m' c₃ d₃ hle h₃ => ?_)
      (fun m' c₃ d₃ hle h₃ => ?_)).widen (by omega)
    · refine (hsub.statements (by omega) h₃).bind fun block block' c₄ d₄ hblock h₄ => ?_
      have harm := hcondition.pair (hblock.bodyMk true)
      refine Together.ifAccept h₄ (by decide) (fun c₅ d₅ h₅ => ?_) ?_
      · exact Together.pure ((harm.cons (.refl [])).pair (.refl none)) h₅
      refine Together.ifAccept h₄ (by decide) (fun c₅ d₅ h₅ => ?_) ?_
      · exact (hnext (by omega) h₅).bind fun rest rest' c₆ d₆ hrest h₆ =>
          Together.pure ((harm.cons hrest.fst).pair hrest.snd) (h₆.mono (by omega))
      refine Together.bind_peekKind h₄ rfl ?_
      split
      · next hkind => exact helse harm (by omega) h₄ hkind
      · exact Together.failExpecting
    · refine (hsub.statement (by omega) h₃).bind fun node node' c₄ d₄ hnode h₄ => ?_
      have harm := hcondition.pair (hnode.bodyMk false)
      refine Together.ifAccept h₄ (by decide) (fun c₅ d₅ h₅ => ?_) ?_
      · exact (hnext (by omega) h₅).bind fun rest rest' c₆ d₆ hrest h₆ =>
          Together.pure ((harm.cons hrest.fst).pair hrest.snd) (h₆.mono (by omega))
      refine Together.bind_peekKind h₄ rfl ?_
      split
      · next hkind => exact (helse harm (by omega) h₄ hkind).widen (by omega)
      · exact Together.pure ((harm.cons (.refl [])).pair (.refl none)) h₄

theorem conditional_together (hsub : Subrules (n - 1) f g) (h : c.Abreast n d)
    (hsolid : c.current.kind.IsSolid) (hbound : n ≤ bound) (hbound' : n ≤ bound') :
    Together (Cursor.Abreast (n - 1)) c d (conditional bound f) (conditional bound' g) := by
  refine (Together.advance h hsolid).bind fun first first' c₁ d₁ hfirst h₁ => ?_
  have harms := arms_consumes hsub (show _ ≤ bound by omega) (show _ ≤ bound' by omega)
    (Nat.le_refl _) h₁
  refine harms.bind fun arms arms' c₂ d₂ harms h₂ => ?_
  exact Together.spanned (fun _ _ => .mk (by
    simp only [Form.erase_ifElse, harms.fst.arms, harms.snd.body?])) (h₂.mono (by omega))

/-! ## Loops -/

theorem loopBody_consumes (hsub : Subrules n f g) : Consumes n (loopBody f) (loopBody g) := by
  intro m c d hm h
  refine Together.bind_expect h (by decide) fun c₁ d₁ h₁ => ?_
  exact (body_consumes hsub (by omega) h₁).widen (by omega)

/-- All loops end with their body. -/
theorem loopEnd_together {first first' : Span} {make make' : Body → Span → Node}
    (hsub : Subrules n f g) (hm : m ≤ n) (h : c.Abreast m d)
    (hmake : ∀ body body' span span', SameShape body body' →
      SameShape (make body span) (make' body' span')) :
    Together (Cursor.Abreast (m - 1)) c d
      (do let body ← loopBody f; return make body (← spanFrom first))
      (do let body ← loopBody g; return make' body (← spanFrom first')) :=
  (loopBody_consumes hsub hm h).bind fun _ _ _ _ hbody h₁ =>
    Together.spanned (fun _ _ => hmake _ _ _ _ hbody) h₁

theorem forObject_consumes {first first' : Span} {key key' : Ident} (hkey : SameShape key key')
    (hsub : Subrules n f g) : Consumes n (forObject f first key) (forObject g first' key') := by
  intro m c d hm h
  refine (ident_together h).bind fun value value' c₁ d₁ hvalue h₁ => ?_
  refine Together.bind_expect h₁ (by decide) fun c₂ d₂ h₂ => ?_
  refine (hsub.expr (by omega) h₂).bind fun object object' c₃ d₃ hobject h₃ => ?_
  refine (loopEnd_together hsub (by omega) h₃ fun _ _ _ _ hbody => SameShape.mk ?_).widen
    (by omega)
  simp only [Form.erase, hkey.ident, hvalue.ident, hobject.node, hbody.body]

theorem forList_consumes {first first' : Span} {name name' : Ident} (hname : SameShape name name')
    (hsub : Subrules n f g) : Consumes n (forList f first name) (forList g first' name') := by
  intro m c d hm h
  refine (hsub.expr hm h).bind fun list list' c₁ d₁ hlist h₁ => ?_
  refine (loopEnd_together hsub (by omega) h₁ fun _ _ _ _ hbody => SameShape.mk ?_).widen
    (by omega)
  simp only [Form.erase, hname.ident, hlist.node, hbody.body]

theorem forCount_consumes {first first' : Span} {name name' : Ident} (hname : SameShape name name')
    (hsub : Subrules n f g) : Consumes n (forCount f first name) (forCount g first' name') := by
  intro m c d hm h
  refine Together.bind_expect h (by decide) fun c₁ d₁ h₁ => ?_
  refine (hsub.expr (by omega) h₁).bind fun start start' c₂ d₂ hstart h₂ => ?_
  refine Together.bind_expect h₂ (by decide) fun c₃ d₃ h₃ => ?_
  refine (hsub.expr (by omega) h₃).bind fun stop stop' c₄ d₄ hstop h₄ => ?_
  have hend : ∀ {step step' : Option Node} {m' : Nat} {c' d' : Cursor}, SameShape step step' →
      m' ≤ m → c'.Abreast m' d' → Together (Cursor.Abreast (m - 1)) c' d'
        (do
          let body ← loopBody f
          return Node.mk (.forCount name start stop step body) (← spanFrom first))
        (do
          let body ← loopBody g
          return Node.mk (.forCount name' start' stop' step' body) (← spanFrom first')) := by
    intro step step' m' c' d' hstep hle h'
    refine (loopEnd_together hsub (by omega) h' fun _ _ _ _ hbody => SameShape.mk ?_).widen
      (by omega)
    simp only [Form.erase_forCount, hname.ident, hstart.node, hstop.node, hstep.node?, hbody.body]
  refine Together.ifAccept h₄ (by decide) (fun c₅ d₅ h₅ => ?_) ?_
  · have hstep := (hsub.expr (by omega) h₅).map fun _ _ h => SameShape.some h
    exact hstep.bind fun step step' c₆ d₆ hstep h₆ => hend hstep (by omega) h₆
  · exact (Together.pure (.refl none) h₄).bind fun step step' c₅ d₅ hstep h₅ =>
      hend hstep (by omega) h₅

theorem forLoop_together (hsub : Subrules (n - 1) f g) (h : c.Abreast n d)
    (hsolid : c.current.kind.IsSolid) :
    Together (Cursor.Abreast (n - 1)) c d (forLoop f) (forLoop g) := by
  refine (Together.advance h hsolid).bind fun first first' c₁ d₁ hfirst h₁ => ?_
  refine (ident_together h₁).bind fun name name' c₂ d₂ hname h₂ => ?_
  refine Together.ifAccept h₂ (by decide) (fun c₃ d₃ h₃ => ?_) ?_
  · exact (forObject_consumes hname hsub (by omega) h₃).widen (by omega)
  refine Together.ifAccept h₂ (by decide) (fun c₃ d₃ h₃ => ?_) ?_
  · exact (forList_consumes hname hsub (by omega) h₃).widen (by omega)
  · exact (forCount_consumes hname hsub (by omega) h₂).widen (by omega)

theorem whileLoop_together (hsub : Subrules (n - 1) f g) (h : c.Abreast n d)
    (hsolid : c.current.kind.IsSolid) :
    Together (Cursor.Abreast (n - 1)) c d (whileLoop f) (whileLoop g) := by
  refine (Together.advance h hsolid).bind fun first first' c₁ d₁ hfirst h₁ => ?_
  refine (hsub.expr (by omega) h₁).bind fun condition condition' c₂ d₂ hcondition h₂ => ?_
  refine (loopEnd_together hsub (by omega) h₂ fun _ _ _ _ hbody => SameShape.mk ?_).widen
    (by omega)
  simp only [Form.erase, hcondition.node, hbody.body]

/-! ## Functions -/

theorem params_together : ∀ {bound bound' n : Nat} {c d : Cursor} (seenOptional : Bool),
    c.Abreast n d → n ≤ bound → n ≤ bound' → Together (Cursor.Abreast (n - 1)) c d
      (params bound seenOptional) (params bound' seenOptional)
  | 0, _, _, _, _, _, h, hbound, _ => absurd hbound h.not_le_zero
  | _, 0, _, _, _, _, h, _, hbound' => absurd hbound' h.not_le_zero
  | bound + 1, bound' + 1, n, c, d, seenOptional, h, hbound, hbound' => by
    unfold params
    refine (ident_together h).bind fun name name' c₁ d₁ hname h₁ => ?_
    refine (Together.accept h₁ (by decide)).bind fun optional optional' c₂ d₂ hoptional h₂ => ?_
    obtain rfl := hoptional.bool
    split
    · exact Together.fail
    · have hparam := hname.paramMk optional
      refine Together.ifAccept h₂ (by decide) (fun c₃ d₃ h₃ => ?_) ?_
      · have hrest := params_together (seenOptional || optional) h₃ (show _ ≤ bound by omega)
          (show _ ≤ bound' by omega)
        exact hrest.bind fun rest rest' c₄ d₄ hrest h₄ =>
          Together.pure (hparam.cons hrest) (h₄.mono (by omega))
      · exact Together.pure (hparam.cons (.refl [])) h₂

theorem paramList_together (h : c.Abreast n d) (hbound : n ≤ bound) (hbound' : n ≤ bound') :
    Together (Cursor.Abreast (n - 1)) c d (paramList bound) (paramList bound') := by
  refine Together.bind_peekKind h rfl ?_
  split
  · refine (params_together false h hbound hbound').bind fun names names' c₁ d₁ hnames h₁ => ?_
    exact Together.bind_expect h₁ (by decide) fun c₂ d₂ h₂ =>
      Together.pure hnames (h₂.mono (by omega))
  · exact Together.bind_expect h (by decide) fun c₁ d₁ h₁ => Together.pure (.refl []) h₁

theorem functionBody_consumes (hsub : Subrules n f g) :
    Consumes n (functionBody f) (functionBody g) := by
  intro m c d hm h
  refine Together.ifAccept h (by decide) (fun c₁ d₁ h₁ => ?_) ?_
  · exact (hsub.expr (by omega) h₁).bind fun value value' c₂ d₂ hvalue h₂ =>
      Together.pure (hvalue.pair (.refl true)) (h₂.mono (by omega))
  · refine Together.ifNewline h (fun _ _ _ hle h => ?_) (fun _ _ _ _ _ => Together.failExpecting)
    exact (blockUntilEnd_consumes hsub (hle.trans hm) h).bind fun block block' c₂ d₂ hblock h₂ =>
      Together.pure (hblock.pair (.refl false)) h₂

theorem function_together (isPublic : Bool) (hsub : Subrules (n - 1) f g) (h : c.Abreast n d)
    (hsolid : c.current.kind.IsSolid) (hbound : n ≤ bound) (hbound' : n ≤ bound') :
    Together (Cursor.Abreast (n - 1)) c d (function bound f isPublic)
      (function bound' g isPublic) := by
  refine (Together.advance h hsolid).bind fun first first' c₁ d₁ hfirst h₁ => ?_
  refine Together.bind_ok rfl rfl (Together.bind_ite (R := Cursor.Abreast (n - 1))
    (h₁.kind_iff (by decide)) (fun _ => ?_) (fun _ => Together.pure (.refl none) h₁)
    fun name name' c₂ d₂ hname h₂ => ?_)
  · exact ((ident_together h₁).map fun _ _ h => SameShape.some h).widen (by omega)
  · refine Together.bind_expect h₂ (by decide) fun c₃ d₃ h₃ => ?_
    refine (paramList_together h₃ (by omega) (by omega)).bind fun names names' c₄ d₄ hnames h₄ => ?_
    refine (functionBody_consumes hsub (by omega) h₄).bind fun body body' c₅ d₅ hbody h₅ => ?_
    refine Together.spanned (fun _ _ => .mk ?_) (h₅.mono (by omega))
    simp only [Form.erase, hname.ident?, hnames.params, hbody.fst.node, hbody.snd.bool]

theorem visible_together (hsub : Subrules (n - 1) f g) (h : c.Abreast n d)
    (hsolid : c.current.kind.IsSolid) (hbound : n ≤ bound) (hbound' : n ≤ bound') :
    Together (Cursor.Abreast (n - 1)) c d (visible bound f) (visible bound' g) := by
  refine (Together.advance h hsolid).bind fun modifier modifier' c₁ d₁ hmodifier h₁ => ?_
  rw [hmodifier.kind]
  refine Together.bind_peekKind h₁ rfl ?_
  split
  · next hkind =>
    have hnode := declaration_together (decide (modifier'.kind = .keyword .public_))
      (hsub.mono (Nat.sub_le _ 1)) h₁ (hkind ▸ by decide)
    exact hnode.bind fun node node' c₂ d₂ hnode h₂ =>
      Together.pure hnode.withSpan (h₂.mono (by omega))
  · next hkind =>
    have hnode := function_together (decide (modifier'.kind = .keyword .public_))
      (hsub.mono (Nat.sub_le _ 1)) h₁ (hkind ▸ by decide) (show _ ≤ bound by omega)
      (show _ ≤ bound' by omega)
    exact hnode.bind fun node node' c₂ d₂ hnode h₂ =>
      Together.pure hnode.withSpan (h₂.mono (by omega))
  · exact (Together.failExpecting (R := Cursor.Abreast (n - 1))).bind
      fun node node' c₂ d₂ hnode h₂ => Together.pure hnode.withSpan h₂

/-! ## Choices and imports -/

/-- The body of a case together with what is read behind it.  At the end a body that starts with a
newline is an empty block, so it is only what follows that fails. -/
theorem caseBody_bind_together {β : Type} [Erasable β] {k l : Node → Parse β}
    (hsub : Subrules n f g) (h : c.Abreast n d)
    (hkl : ∀ body body', SameShape body body' → Consumes n (k body) (l body')) :
    Together (Cursor.Abreast (n - 1)) c d (caseBody f >>= k) (caseBody g >>= l) := by
  have hbind : ∀ (sub : Rule → Parse Node) (k : Node → Parse β), caseBody sub >>= k = (do
      discard <| expect (.keyword .then_)
      if (← peekKind) = .newline then sub .statements >>= k else sub .statement >>= k) := by
    intro sub k
    rw [caseBody, bind_assoc]
    refine congrArg _ (funext fun _ => ?_)
    rw [bind_assoc]
    refine congrArg _ (funext fun kind => ?_)
    split <;> rfl
  rw [hbind, hbind]
  refine Together.bind_expect h (by decide) fun c₁ d₁ h₁ => ?_
  refine (Together.ifNewlineAhead h₁ (fun m c₂ d₂ hle h₂ => ?_)
    (fun m c₂ d₂ hle h₂ => ?_)).widen (by omega)
  · exact (hsub.statements (by omega) h₂).bind fun body body' c₃ d₃ hbody h₃ =>
      hkl _ _ hbody (by omega) h₃
  · exact (hsub.statement (by omega) h₂).bind fun body body' c₃ d₃ hbody h₃ =>
      (hkl _ _ hbody (by omega) h₃).widen (by omega)

theorem cases_consumes : ∀ {bound bound' n : Nat} {otherwise otherwise' : Option Node},
    SameShape otherwise otherwise' → Subrules n f g → n ≤ bound → n ≤ bound' →
    Consumes n (Production.cases f bound otherwise) (Production.cases g bound' otherwise')
  | 0, _, _, _, _, _, _, hbound, _ => fun _ _ _ hm h =>
    absurd (hm.trans hbound) h.not_le_zero
  | _, 0, _, _, _, _, _, _, hbound' => fun _ _ _ hm h =>
    absurd (hm.trans hbound') h.not_le_zero
  | bound + 1, bound' + 1, n, otherwise, otherwise', hotherwise, hsub, hbound, hbound' => by
    intro m c d hm h
    -- the next case is behind the keyword of this one
    have hnext : ∀ {otherwise otherwise' : Option Node}, SameShape otherwise otherwise' →
        Consumes (m - 1) (Production.cases f bound otherwise)
          (Production.cases g bound' otherwise') := fun hotherwise =>
      cases_consumes hotherwise (hsub.mono (by omega)) (by omega) (by omega)
    unfold Production.cases
    refine Together.bind_peekKind h rfl ?_
    split
    · next hkind =>
      refine Together.bind_advance h (hkind ▸ by decide) fun c₁ d₁ h₁ => ?_
      refine (hsub.expr (by omega) h₁).bind fun pattern pattern' c₂ d₂ hpattern h₂ => ?_
      refine (caseBody_bind_together (hsub.mono (by omega)) h₂
        fun body body' hbody m' c₃ d₃ hm' h₃ => ?_).widen (by omega)
      refine Together.bind_skipNewlines h₃.loose fun c₄ d₄ h₄ => ?_
      exact (hnext hotherwise (by omega) h₄.toAbreast).bind fun rest rest' c₅ d₅ hrest h₅ =>
        Together.pure (((hpattern.pair hbody).cons hrest.fst).pair hrest.snd) h₅
    · next hkind =>
      rw [hotherwise.isSome_eq]
      split
      · exact Together.bind_peek Together.fail
      · refine Together.bind_advance h (hkind ▸ by decide) fun c₁ d₁ h₁ => ?_
        refine (caseBody_bind_together (hsub.mono (by omega)) h₁
          fun body body' hbody m' c₂ d₂ hm' h₂ => ?_).widen (by omega)
        refine Together.bind_skipNewlines h₂.loose fun c₃ d₃ h₃ => ?_
        exact hnext hbody.some (by omega) h₃.toAbreast
    · next hkind =>
      exact Together.bind_advance h (hkind ▸ by decide) fun c₁ d₁ h₁ =>
        Together.pure (SameShape.pair (.refl []) hotherwise) h₁
    · exact Together.failExpecting

theorem switch_together (hsub : Subrules (n - 1) f g) (h : c.Abreast n d)
    (hsolid : c.current.kind.IsSolid) (hbound : n ≤ bound) (hbound' : n ≤ bound') :
    Together (Cursor.Abreast (n - 1)) c d (switch bound f) (switch bound' g) := by
  refine (Together.advance h hsolid).bind fun first first' c₁ d₁ hfirst h₁ => ?_
  refine (hsub.expr (Nat.le_refl _) h₁).bind fun subject subject' c₂ d₂ hsubject h₂ => ?_
  refine (Together.ifNewlines h₂ fun m c₃ d₃ hm h₃ => ?_).widen (by omega)
  have hcases := cases_consumes (.refl none) hsub (show _ ≤ bound by omega)
    (show _ ≤ bound' by omega) (show m ≤ _ by omega) h₃
  refine hcases.bind fun further further' c₄ d₄ hfurther h₄ => ?_
  refine Together.spanned (fun _ _ => .mk ?_) h₄
  simp only [Form.erase_switch, hsubject.node, hfurther.fst.cases, hfurther.snd.node?]

theorem importAs_together (hsub : Subrules (n - 1) f g) (h : c.Abreast n d)
    (hsolid : c.current.kind.IsSolid) :
    Together (Cursor.Abreast (n - 1)) c d (importAs f) (importAs g) := by
  refine (Together.advance h hsolid).bind fun first first' c₁ d₁ hfirst h₁ => ?_
  refine (hsub.expr (Nat.le_refl _) h₁).bind fun lib lib' c₂ d₂ hlib h₂ => ?_
  refine Together.bind_expect h₂ (by decide) fun c₃ d₃ h₃ => ?_
  refine (ident_together h₃).bind fun name name' c₄ d₄ hname h₄ => ?_
  exact Together.spanned (fun _ _ => .mk (by simp only [Form.erase, hlib.node, hname.ident]))
    (h₄.mono (by omega))

/-! ## Expressions -/

theorem atom_together (hsub : Subrules (n - 1) f g) (h : c.Abreast n d) (hbound : n ≤ bound)
    (hbound' : n ≤ bound') :
    Together (Cursor.Abreast (n - 1)) c d (atom bound f) (atom bound' g) := by
  refine Together.bind_peekKind h rfl ?_
  split
  case h_1 hkind | h_2 hkind => exact number_together h (hkind ▸ by decide)
  case h_3 hkind =>
    have hsolid : c.current.kind.IsSolid := hkind ▸ by decide
    refine Together.bind_peek ?_
    rw [(h.solid_token hsolid).2.1]
    exact literal_together _ h hsolid
  case h_4 hkind | h_5 hkind | h_6 hkind => exact literal_together _ h (hkind ▸ by decide)
  case h_7 => exact nameOrAssignment_together hsub h hbound hbound'
  case h_8 hkind => exact group_together hsub h (hkind ▸ by decide)
  case h_9 hkind => exact list_together hsub h (hkind ▸ by decide) hbound hbound'
  case h_10 hkind => exact object_together hsub h (hkind ▸ by decide) hbound hbound'
  case h_11 hkind => exact conditional_together hsub h (hkind ▸ by decide) hbound hbound'
  case h_12 hkind => exact forLoop_together hsub h (hkind ▸ by decide)
  case h_13 hkind => exact whileLoop_together hsub h (hkind ▸ by decide)
  case h_14 hkind => exact function_together false hsub h (hkind ▸ by decide) hbound hbound'
  case h_15 hkind => exact switch_together hsub h (hkind ▸ by decide) hbound hbound'
  case h_16 hkind => exact importAs_together hsub h (hkind ▸ by decide)
  case h_17 hkind | h_18 hkind =>
    exact visible_together hsub h (hkind ▸ by decide) hbound hbound'
  case h_19 => exact Together.failExpecting

theorem suffixes_together : ∀ {rest rest' n : Nat} {c d : Cursor} {target target' : Node},
    SameShape target target' → Subrules n f g → c.Abreast n d → n ≤ bound → n ≤ bound' →
    n ≤ rest → n ≤ rest' → Together (Cursor.Abreast n) c d (suffixes bound f rest target)
      (suffixes bound' g rest' target')
  | 0, _, _, _, _, _, _, _, _, h, _, _, hrest, _ =>
    absurd hrest h.not_le_zero
  | _, 0, _, _, _, _, _, _, _, h, _, _, _, hrest' =>
    absurd hrest' h.not_le_zero
  | rest + 1, rest' + 1, n, c, d, target, target', htarget, hsub, h, hbound, hbound', hrest,
      hrest' => by
    unfold suffixes
    have hagain : ∀ {m : Nat} {c' d' : Cursor} {target target' : Node}, SameShape target target' →
        m < n → c'.Abreast m d' → Together (Cursor.Abreast n) c' d' (suffixes bound f rest target)
          (suffixes bound' g rest' target') := fun htarget hm h' =>
      (suffixes_together htarget (hsub.mono (by omega)) h' (by omega) (by omega) (by omega)
        (by omega)).widen (by omega)
    have hpos := h.pos
    refine Together.ifAccept h (by decide) (fun c₁ d₁ h₁ => ?_) ?_
    · refine (ident_together h₁).bind fun name name' c₂ d₂ hname h₂ => ?_
      exact hagain (.mk (by simp only [Form.erase, htarget.node, hname.ident])) (by omega) h₂
    · refine Together.ifAccept h (by decide) (fun c₁ d₁ h₁ => ?_) (Together.pure htarget h)
      have hargs := sequence_together .rightParen h₁ (Consumes.mono hsub.expr (Nat.sub_le n 1))
        (show _ ≤ bound by omega) (show _ ≤ bound' by omega)
      refine hargs.bind fun args args' c₂ d₂ hargs h₂ => ?_
      refine Together.bind_ok rfl rfl ?_
      exact hagain (.mk (by simp only [Form.erase, htarget.node, hargs.nodes])) (by omega) h₂

theorem power_together (hsub : Subrules (n - 1) f g) (h : c.Abreast n d) (hbound : n ≤ bound)
    (hbound' : n ≤ bound') :
    Together (Cursor.Abreast (n - 1)) c d (power bound f) (power bound' g) := by
  have hbase : Together (Cursor.Abreast (n - 1)) c d (suffixed bound f) (suffixed bound' g) := by
    refine (atom_together hsub h hbound hbound').bind fun target target' c₁ d₁ htarget h₁ => ?_
    exact suffixes_together htarget hsub h₁ (by omega) (by omega) (by omega) (by omega)
  refine hbase.bind fun base base' c₁ d₁ hbase h₁ => ?_
  refine Together.ifAccept h₁ (by decide) (fun c₂ d₂ h₂ => ?_) (Together.pure hbase h₁)
  have hexponent := hsub.consumes (show Rule.signed ≠ .statements by decide) (Nat.sub_le _ 1) h₂
  exact hexponent.bind fun exponent exponent' c₃ d₃ hexponent h₃ =>
    Together.pure (.mk (by simp only [Form.erase, hbase.node, hexponent.node])) (h₃.mono (by omega))

/-- An operator in front of what a rule reads. -/
theorem unary_together {rule : Rule} (op : UnaryOp) {first first' : Span}
    (hrule : rule ≠ .statements) (hsub : Subrules (n - 1) f g) (h : c.Abreast n d)
    (hsolid : c.current.kind.IsSolid) :
    Together (Cursor.Abreast (n - 1)) c d
      (do
        discard advance
        let operand ← f rule
        return Node.mk (.unary op operand) (← spanFrom first))
      (do
        discard advance
        let operand ← g rule
        return Node.mk (.unary op operand) (← spanFrom first')) := by
  refine Together.bind_advance h hsolid fun c₁ d₁ h₁ => ?_
  refine (hsub.consumes hrule (Nat.le_refl _) h₁).bind fun operand operand' c₂ d₂ hoperand h₂ => ?_
  exact Together.spanned (fun _ _ => .mk (by simp only [Form.erase, hoperand.node]))
    (h₂.mono (by omega))

theorem signed_consumes (hsub : Subrules (n - 1) f g) (hbound : n ≤ bound) (hbound' : n ≤ bound') :
    Consumes n (signed bound f) (signed bound' g) := by
  intro m c d hm h
  have hsub' : Subrules (m - 1) f g := hsub.mono (by omega)
  refine Together.bind_peekAt h (fun _ _ => rfl) ?_
  dsimp only
  split
  · next hkind => exact unary_together .plus (by decide) hsub' h (hkind ▸ by decide)
  · next hkind => exact unary_together .minus (by decide) hsub' h (hkind ▸ by decide)
  · exact power_together hsub' h (by omega) (by omega)

theorem negation_consumes (hsub : Subrules (n - 1) f g) (hbound : n ≤ bound)
    (hbound' : n ≤ bound') : Consumes n (negation bound f) (negation bound' g) := by
  intro m c d hm h
  refine Together.bind_peekAt h (fun _ _ => rfl) ?_
  dsimp only
  split
  · next hkind => exact unary_together .not (by decide) (hsub.mono (by omega)) h (hkind ▸ by decide)
  · have hproduct := chain_consumes .product (signed_consumes hsub hbound hbound') hbound hbound'
    have hsum := chain_consumes .sum hproduct hbound hbound'
    exact chain_consumes .comparison hsum hbound hbound' hm h

theorem expr_consumes (hsub : Subrules (n - 1) f g) (hbound : n ≤ bound) (hbound' : n ≤ bound') :
    Consumes n (expr bound f) (expr bound' g) := by
  intro m c d hm h
  refine Together.bind_peekKind h rfl ?_
  split
  · next hkind => exact declaration_together false (hsub.mono (by omega)) h (hkind ▸ by decide)
  · have hconjunction := chain_consumes .conjunction (negation_consumes hsub hbound hbound') hbound
      hbound'
    exact chain_consumes .disjunction hconjunction hbound hbound' hm h

/-! ## Statements -/

theorem statement_consumes (hsub : Subrules (n - 1) f g) (hbound : n ≤ bound)
    (hbound' : n ≤ bound') : Consumes n (statement bound f) (statement bound' g) := by
  intro m c d hm h
  have hexpr := expr_consumes hsub hbound hbound'
  refine Together.bind_peekAt h (fun _ _ => rfl) ?_
  dsimp only
  split
  · next hkind =>
    refine Together.bind_advance h (hkind ▸ by decide) fun c₁ d₁ h₁ => ?_
    refine Together.bind_peekKind h₁ rfl ?_
    split
    · exact Together.spanned (fun _ _ => .mk rfl) h₁
    · refine (hexpr (by omega) h₁).bind fun value value' c₂ d₂ hvalue h₂ => ?_
      exact Together.spanned (fun _ _ => .mk (by simp only [Form.erase, hvalue.node]))
        (h₂.mono (by omega))
  · next hkind => exact literal_together _ h (hkind ▸ by decide)
  · next hkind => exact literal_together _ h (hkind ▸ by decide)
  · exact hexpr hm h

/-- At the end there are no further statements, whether or not there is a newline in front of
`eof`. -/
theorem furtherStatements_of_ended {statement : Parse Node} (hc : c.Ended) :
    furtherStatements false statement (bound + 1) c = .ok ([], c.behindNewlines) := by
  have hskip : skipNewlines c = .ok (c.newlines, c.behindNewlines) := rfl
  rw [furtherStatements, run_bind_ok hskip]
  split
  · rfl
  · have hpeek : peekKind c.behindNewlines = .ok (.eof, c.behindNewlines) :=
      congrArg (fun kind => Except.ok (kind, c.behindNewlines)) hc.behindNewlines.2
    rw [run_bind_ok hpeek]
    rfl

theorem furtherStatements_together {statement statement' : Parse Node} :
    ∀ {bound bound' n : Nat} {c d : Cursor}, c.Abreast n d → Consumes n statement statement' →
      n ≤ bound → n ≤ bound' → Together (Cursor.Facing n) c d
        (furtherStatements false statement bound) (furtherStatements false statement' bound')
  | 0, _, _, _, _, h, _, hbound, _ => absurd hbound h.not_le_zero
  | _, 0, _, _, _, h, _, _, hbound' => absurd hbound' h.not_le_zero
  | bound + 1, bound' + 1, n, c, d, h, hstatement, hbound, hbound' => by
    have hfacing := h.loose.behindNewlines
    rcases h.cases with ⟨hc, hd⟩ | ⟨hc, hd, -⟩ | ⟨hkind, -, hsolid, -⟩
    · exact .read (furtherStatements_of_ended hc) (furtherStatements_of_ended hd) (.refl []) hfacing
    · unfold furtherStatements
      refine Together.bind_ok rfl rfl ?_
      rw [if_neg fun hzero => Cursor.newlines_eq_zero_iff.1 hzero hc,
        if_neg fun hzero => Cursor.newlines_eq_zero_iff.1 hzero hd]
      refine Together.bind_ok rfl rfl ?_
      show Together (Cursor.Facing n) c.behindNewlines d.behindNewlines
        (if c.behindNewlines.current.kind.closesList then _ else _)
        (if d.behindNewlines.current.kind.closesList then _ else _)
      rw [← hfacing.kind]
      split
      · exact Together.pure (.refl []) hfacing
      · refine Together.bind_get ?_
        cases hstatement (Nat.le_refl n) hfacing.toAbreast with
        | read hp hq hshape h₁ =>
          rw [hp, hq]
          refine Together.bind_set ?_
          have hrest := furtherStatements_together h₁ (hstatement.mono (by omega))
            (show _ ≤ bound by omega) (show _ ≤ bound' by omega)
          exact hrest.bind fun rest rest' c₂ d₂ hrest h₂ =>
            Together.pure (hshape.cons hrest) ⟨h₂.mono (by omega), h₂.kind⟩
        | failed hp hq =>
          rw [hp, hq]
          exact Together.fail
    · have hzero := Cursor.newlines_eq_zero hsolid.1
      have hzero' := Cursor.newlines_eq_zero (hkind ▸ hsolid.1)
      unfold furtherStatements
      refine Together.bind_ok rfl rfl ?_
      rw [if_pos hzero, if_pos hzero']
      exact Together.pure (.refl []) hfacing

theorem statements_together (hsub : Subrules (n - 1) f g) (h : c.Loose n d) (hbound : n ≤ bound)
    (hbound' : n ≤ bound') :
    Together (Cursor.Facing n) c d (statements bound f false) (statements bound' g false) := by
  have hstatement := statement_consumes hsub hbound hbound'
  refine Together.bind_peek (Together.bind_skipNewlines h fun c₁ d₁ h₁ => ?_)
  refine Together.bind_ok rfl rfl (Together.bind_ite (R := Cursor.Abreast n) (by rw [h₁.kind])
    (fun _ => Together.pure (.refl []) h₁.toAbreast) (fun _ => ?_)
    fun leading leading' c₂ d₂ hleading h₂ => ?_)
  · have hfirst := hstatement (Nat.le_refl n) h₁.toAbreast
    exact (hfirst.map fun _ _ h => h.cons (.refl [])).widen (Nat.sub_le n 1)
  · have hfurther := furtherStatements_together h₂ hstatement hbound hbound'
    refine hfurther.bind fun further further' c₃ d₃ hfurther h₃ => ?_
    have hblock := (hleading.append hfurther).nodes
    exact Together.spanned (fun _ _ => .mk (by simp only [Form.erase, hblock])) h₃

/-! ## Programs -/

/-- All rules, by induction on the number of tokens that are not newlines. -/
theorem Rule.parseWithin_together : ∀ (n : Nat) {bound bound' : Nat}, n ≤ bound → n ≤ bound' →
    Subrules n (parseWithin false bound) (parseWithin false bound')
  | 0, _, _, _, _ =>
    ⟨fun _ _ _ _ hm h => absurd hm h.not_le_zero,
      fun hm h => absurd hm h.behindNewlines.not_le_zero⟩
  | n + 1, bound + 1, bound' + 1, hbound, hbound' => by
    have hsub : Subrules n (parseWithin false bound) (parseWithin false bound') :=
      parseWithin_together n (Nat.le_of_succ_le_succ hbound) (Nat.le_of_succ_le_succ hbound')
    refine ⟨fun {rule} hrule => ?_, fun hm h => ?_⟩
    · cases rule with
      | expr => exact expr_consumes hsub hbound hbound'
      | statement => exact statement_consumes hsub hbound hbound'
      | statements => exact absurd rfl hrule
      | negation => exact negation_consumes hsub hbound hbound'
      | signed => exact signed_consumes hsub hbound hbound'
    · exact (statements_together (hsub.mono (by omega)) h (by omega) (by omega)).mono
        fun _ _ h => h.toAbreast

/-- Two programs that differ in the newlines between their tokens only. -/
theorem Rule.program_together (h : Respaced (dropBlank c.tokens) (dropBlank d.tokens)) :
    Together (fun _ _ => True) c d (program false) (program false) := by
  have hroot : Together (Cursor.Facing (solid c.tokens)) c d (Rule.statements.parse false)
      (Rule.statements.parse false) := by
    have hsolid := h.solid_eq
    rw [solid_dropBlank, solid_dropBlank] at hsolid
    have hc : solid c.tokens ≤ c.upcoming.length + 1 := List.countP_le_length
    have hd : solid d.tokens ≤ d.upcoming.length + 1 := List.countP_le_length
    refine Together.bind_get ?_
    exact statements_together (parseWithin_together _ (by omega) (by omega)) ⟨h, Nat.le_refl _⟩
      (by omega) (by omega)
  refine hroot.bind fun root root' c₁ d₁ hroot h₁ => ?_
  refine Together.bind_ok rfl rfl ?_
  show Together _ c₁ d₁ (if c₁.current.kind = .eof then _ else _)
    (if d₁.current.kind = .eof then _ else _)
  rw [← h₁.kind]
  split
  · exact Together.pure hroot trivial
  · exact Together.failHere

end BpScript
