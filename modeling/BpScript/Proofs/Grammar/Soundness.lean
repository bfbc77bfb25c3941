import BpScript.Proofs.Grammar
import BpScript.Proofs.Rewinding

/-!
# Parsers keep to the grammar

Whatever a parser reads, the grammar derives.  The productions are taken one by one, under the
assumption that the rules they nest keep to the grammar; `Rule.parseWithin_derives` ties the knot by
induction on the bound.  The parser is the one that reports errors at once, so a list of statements
ends where no statement follows.

* `Parse.Ensures` — what holds of a value and a cursor if a step gives them.
* `Ensures.bind`, `Ensures.ifAccept`, `Ensures.bind_expect`, … — sequences of steps.
* `list_derives`, `arms_derives`, … — one lemma for each production.
* `Rule.program_derives` — programs.
* **`Node.derives_of_parse`** — the tree of a source has a derivation.  Rewinding plays no part in
  it, since a program is read as by the parser that reports errors at once.
-/

namespace BpScript

/-! ## What a step ensures -/

namespace Parse

variable {α β : Type} {c : Cursor}

/-- If the step succeeds at `c`, what it gives satisfies `Q`. -/
def Ensures (c : Cursor) (p : Parse α) (Q : α → Cursor → Prop) : Prop :=
  ∀ a c', p c = .ok (a, c') → Q a c'

namespace Ensures

variable {p : Parse α} {k : α → Parse β} {P : α → Cursor → Prop} {Q : β → Cursor → Prop}

theorem pure {a : α} (h : P a c) : Ensures c (pure a) P := by
  intro b c' hrun
  cases hrun
  exact h

theorem failHere {fault : SyntaxFault} : Ensures c (Parse.failHere fault) P := by
  intro a c' hrun
  cases hrun

theorem failExpecting {kinds : List TokenKind} : Ensures c (Parse.failExpecting kinds) P :=
  failHere

theorem fail {e : Diagnostic} : Ensures c (Parse.fail e) P := by
  intro a c' hrun
  cases hrun

theorem exhausted : Ensures c Parse.exhausted P := by
  intro a c' hrun
  cases hrun

theorem weaken {R : α → Cursor → Prop} (h : Ensures c p P) (hR : ∀ a c', P a c' → R a c') :
    Ensures c p R :=
  fun a c' hrun => hR a c' (h a c' hrun)

/-- **Sequences.**  The next step starts where the first one ended. -/
theorem bind (hp : Ensures c p P) (hk : ∀ a c', P a c' → Ensures c' (k a) Q) :
    Ensures c (p >>= k) Q := by
  intro b c' hrun
  cases hfirst : p c with
  | error failure =>
    rw [run_bind_error hfirst] at hrun
    cases hrun
  | ok result =>
    obtain ⟨a, c₁⟩ := result
    rw [run_bind_ok hfirst] at hrun
    exact hk a c₁ (hp a c₁ hfirst) b c' hrun

/-- A first step that is known to succeed. -/
theorem bind_run {a : α} {c' : Cursor} (hp : p c = .ok (a, c')) (hk : Ensures c' (k a) Q) :
    Ensures c (p >>= k) Q := by
  intro b c'' hrun
  rw [run_bind_ok hp] at hrun
  exact hk b c'' hrun

/-- A step whose value is wrapped before it is used. -/
theorem bind_map {γ : Type} {f : α → γ} {k : γ → Parse β} (hp : Ensures c p P)
    (hk : ∀ a c', P a c' → Ensures c' (k (f a)) Q) : Ensures c (f <$> p >>= k) Q := by
  rw [bind_map_left]
  exact hp.bind hk

theorem bind_peek {k : Token → Parse β} (h : Ensures c (k c.current) Q) :
    Ensures c (peek >>= k) Q :=
  bind_run rfl h

theorem bind_peekKind {k : TokenKind → Parse β} (h : Ensures c (k c.current.kind) Q) :
    Ensures c (peekKind >>= k) Q :=
  bind_run rfl h

theorem bind_get {k : Cursor → Parse β} (h : Ensures c (k c) Q) : Ensures c (get >>= k) Q :=
  bind_run rfl h

theorem bind_set {x : Parse β} {c' : Cursor} (h : Ensures c' x Q) :
    Ensures c (do set c'; x) Q :=
  bind_run rfl h

theorem spanned {first : Span} {f : Span → β} (h : Q (f (c.spanFrom first)) c) :
    Ensures c (do return f (← spanFrom first)) Q :=
  bind_run rfl (pure h)

theorem bind_advance {k : Token → Parse β} (h : Ensures c.advance (k c.current) Q) :
    Ensures c (advance >>= k) Q :=
  bind_run rfl h

theorem bind_discard_advance {x : Parse β} (h : Ensures c.advance x Q) :
    Ensures c (do discard advance; x) Q :=
  bind_run rfl h

theorem bind_skipNewlines {x : Parse β} (h : Ensures c.behindNewlines x Q) :
    Ensures c (do discard skipNewlines; x) Q :=
  bind_run rfl h

theorem bind_newlines {k : Nat → Parse β} (h : Ensures c.behindNewlines (k c.newlines) Q) :
    Ensures c (skipNewlines >>= k) Q :=
  bind_run rfl h

theorem expectAmong {kind : TokenKind} {kinds : List TokenKind} :
    Ensures c (Parse.expectAmong kind kinds) fun a c' => a = c.current ∧ c.Step kind c' := by
  refine bind_peekKind ?_
  split
  · next hkind =>
    intro a c' hrun
    cases hrun
    exact ⟨rfl, hkind, rfl⟩
  · exact failExpecting

/-- Moving past a token that has to be there. -/
theorem bind_expect {kind : TokenKind} {kinds : List TokenKind} {x : Parse β}
    (h : ∀ c', c.Step kind c' → Ensures c' x Q) :
    Ensures c (do discard (Parse.expectAmong kind kinds); x) Q := by
  have hdiscard : Ensures c (discard (Parse.expectAmong kind kinds))
      fun _ c' => c.Step kind c' := by
    rw [Functor.discard, LawfulFunctor.map_const]
    show Ensures c (Function.const Token PUnit.unit <$> Parse.expectAmong kind kinds) _
    rw [map_eq_pure_bind]
    exact expectAmong.bind fun _ _ h => pure h.2
  exact hdiscard.bind fun _ => h

/-- A choice by the kind of the current token. -/
theorem ifAccept {kind : TokenKind} {x y : Parse β}
    (hyes : ∀ c', c.Step kind c' → Ensures c' x Q)
    (hno : c.current.kind ≠ kind → Ensures c y Q) :
    Ensures c (do if ← accept kind then x else y) Q := by
  by_cases hkind : c.current.kind = kind
  · exact bind_run (accept_of_eq hkind) (hyes _ ⟨hkind, rfl⟩)
  · exact bind_run (accept_of_ne hkind) (hno hkind)

end Ensures

/-- Whatever the step reads at any cursor is a phrase that the grammar derives. -/
def Follows (p : Parse α) (phrase : α → Phrase) : Prop :=
  ∀ c, Ensures c p fun a c' => Derives (phrase a) c c'

end Parse

open Parse Production

variable {sub : Rule → Parse Node} {bound : Nat} {c : Cursor}

/-- The rules that a production nests keep to the grammar. -/
abbrev SubFollows (sub : Rule → Parse Node) : Prop :=
  ∀ rule : Rule, Follows (sub rule) (.node rule.category)

/-! ## Names and repetition -/

theorem ident_derives :
    Ensures c ident fun name c' => name = identOf c.current ∧ c.Step .ident c' :=
  Ensures.expectAmong.bind fun _ _ h => Ensures.pure ⟨congrArg identOf h.1, h.2⟩

theorem segments_derives : ∀ bound : Nat, Follows (segments bound) .segments
  | 0 => fun _ => Ensures.exhausted
  | bound + 1 => by
    intro c
    refine Ensures.bind_get ?_
    split
    · next next rest hdot hnext =>
      split
      · next hident =>
        have hcurrent : c.advance.current = next := by rw [Cursor.advance, hnext]
        refine Ensures.bind_discard_advance (Ensures.bind_discard_advance ?_)
        refine (segments_derives bound _).bind fun path c' hpath => Ensures.pure ?_
        rw [← hcurrent] at hident ⊢
        exact .segment ⟨hdot, rfl⟩ ⟨hident, rfl⟩ hpath
      · exact Ensures.pure .noSegment
    · exact Ensures.pure .noSegment

theorem itemsUntil_derives {α : Type} {item : Parse α} {phrase : α → Phrase} {close : Symbol}
    (hclosing : close.isClosing = true) (hitem : Follows item phrase) : ∀ bound : Nat,
    Follows (itemsUntil close item bound) fun items => .items close (items.map phrase)
  | 0 => fun _ => Ensures.exhausted
  | bound + 1 => by
    intro c
    refine (hitem c).bind fun first c₁ hfirst => Ensures.bind_skipNewlines ?_
    refine Ensures.ifAccept (fun c₂ hcomma => ?_) fun _ => ?_
    · refine Ensures.bind_skipNewlines ?_
      refine (itemsUntil_derives hclosing hitem bound _).bind fun rest c' hrest => ?_
      exact Ensures.pure (.item hfirst hcomma hrest)
    · exact Ensures.bind_expect fun c' hclose => Ensures.pure (.lastItem hfirst hclosing hclose)

theorem sequence_derives {α : Type} {item : Parse α} {phrase : α → Phrase} {close : Symbol}
    (hclosing : close.isClosing = true) (hitem : Follows item phrase) :
    Follows (sequence bound close item) fun items => .sequence close (items.map phrase) := by
  intro c
  refine Ensures.bind_skipNewlines (Ensures.ifAccept (fun c' hclose => ?_) fun _ => ?_)
  · exact Ensures.pure (.noItem hclosing hclose)
  · exact (itemsUntil_derives hclosing hitem bound _).weaken fun items c' => .sequence

/-- The operators of a chain are read one after the other; what has been read so far is the left
side of the next one. -/
theorem chainFrom_derives {level : Level} {operand : Parse Node}
    (hoperand : Follows operand (.node level.operand)) :
    ∀ (bound : Nat) {c₀ c : Cursor} (lhs : Node),
    Derives (.node (.chain level) lhs) c₀ c →
    Ensures c (chainFrom level operand bound lhs) fun node c' =>
      Derives (.node (.chain level) node) c₀ c'
  | 0, _, _, _, _ => Ensures.exhausted
  | bound + 1, c₀, c, lhs, hlhs => by
    refine Ensures.bind_peekKind ?_
    split
    · exact Ensures.pure hlhs
    · next op hop =>
      refine Ensures.bind_discard_advance ?_
      refine (hoperand _).bind fun rhs c₁ hrhs => ?_
      exact chainFrom_derives hoperand bound _ (.binary hlhs hop hrhs)

theorem chain_derives {level : Level} {operand : Parse Node}
    (hoperand : Follows operand (.node level.operand)) :
    Follows (chain bound level operand) (.node (.chain level)) :=
  fun c => (hoperand c).bind fun lhs _ hlhs => chainFrom_derives hoperand bound lhs (.operand hlhs)

/-! ## Literals and brackets -/

theorem number_derives (hkind : c.current.kind = .int ∨ c.current.kind = .float) :
    Ensures c number fun node c' => Derives (.node .atom node) c c' := by
  refine Ensures.bind_advance ?_
  split
  · next value hvalue =>
    refine Ensures.pure ?_
    rcases hkind with hkind | hkind
    · exact .int ⟨hkind, rfl⟩ hvalue
    · exact .float ⟨hkind, rfl⟩ hvalue
  · exact Ensures.fail

theorem literal_ensures {form : Form} {Q : Node → Cursor → Prop}
    (h : Q (.mk form c.current.span) c.advance) : Ensures c (literal form) Q :=
  Ensures.bind_advance (Ensures.pure h)

theorem group_derives (hsub : SubFollows sub) (hkind : c.current.kind = .symbol .leftParen) :
    Ensures c (group sub) fun node c' => Derives (.node .atom node) c c' := by
  refine Ensures.bind_discard_advance ?_
  refine (hsub .expr _).bind fun inner c₁ hinner => ?_
  exact Ensures.bind_expect fun c' hclose => Ensures.pure (.group ⟨hkind, rfl⟩ hinner hclose)

theorem list_derives (hsub : SubFollows sub) (hkind : c.current.kind = .symbol .leftSquare) :
    Ensures c (list bound sub) fun node c' => Derives (.node .atom node) c c' := by
  refine Ensures.bind_advance ?_
  refine (sequence_derives rfl (hsub .expr) _).bind fun items c' hitems => ?_
  exact Ensures.spanned (.list ⟨hkind, rfl⟩ hitems)

theorem entry_derives (hsub : SubFollows sub) : Follows (entry sub) .entry := by
  intro c
  have hentry : ∀ kind : TokenKind, kind = .ident ∨ kind = .string → c.current.kind = kind →
      Ensures c
        (do
          let key ← advance
          discard <| expect (.symbol .colon)
          return (identOf key, ← sub .expr))
        fun entry c' => Derives (.entry entry) c c' := by
    intro kind hkind hcurrent
    refine Ensures.bind_advance (Ensures.bind_expect fun c₁ hcolon => ?_)
    refine (hsub .expr _).bind fun value c' hvalue => ?_
    exact Ensures.pure (.entry hkind ⟨hcurrent, rfl⟩ hcolon hvalue)
  refine Ensures.bind_peekKind ?_
  split
  · next hkind => exact hentry _ (.inl rfl) hkind
  · next hkind => exact hentry _ (.inr rfl) hkind
  · exact Ensures.failExpecting

theorem object_derives (hsub : SubFollows sub) (hkind : c.current.kind = .symbol .leftBrace) :
    Ensures c (object bound sub) fun node c' => Derives (.node .atom node) c c' := by
  refine Ensures.bind_advance ?_
  refine (sequence_derives rfl (entry_derives hsub) _).bind fun entries c' hentries => ?_
  exact Ensures.spanned (.object ⟨hkind, rfl⟩ hentries)

/-! ## Names and assignments -/

theorem declaration_derives (hsub : SubFollows sub) (isPublic : Bool)
    (hkind : c.current.kind = .keyword .let_) :
    Ensures c (declaration sub isPublic) fun node c' =>
      Derives (.node (.definition isPublic) node) c c' := by
  refine Ensures.bind_advance (ident_derives.bind ?_)
  rintro name c₁ ⟨rfl, hname⟩
  refine Ensures.bind_expect fun c₂ hequal => ?_
  refine (hsub .expr _).bind fun value c' hvalue => ?_
  exact Ensures.spanned (.declaration ⟨hkind, rfl⟩ hname hequal hvalue)

theorem nameOrAssignment_derives (hsub : SubFollows sub) :
    Follows (nameOrAssignment bound sub) (.node .atom) := by
  intro c
  refine ident_derives.bind ?_
  rintro name c₁ ⟨rfl, hname⟩
  refine Ensures.bind_peekKind ?_
  split
  · next op hop =>
    refine Ensures.bind_discard_advance ?_
    refine (hsub .expr _).bind fun value c' hvalue => ?_
    exact Ensures.pure (.assign hname hop hvalue)
  · refine Ensures.bind_get ?_
    refine (segments_derives bound _).bind fun path c₂ hpath => Ensures.bind_peekKind ?_
    split
    · next hop =>
      refine Ensures.bind_discard_advance ?_
      refine (hsub .expr _).bind fun value c' hvalue => ?_
      exact Ensures.pure (.memberAssign hname hpath (List.cons_ne_nil _ _) hop hvalue)
    · exact Ensures.bind_set (Ensures.pure (.access hname))

/-! ## Bodies -/

theorem blockUntilEnd_ensures (hsub : SubFollows sub) {Q : Node → Cursor → Prop}
    (h : ∀ node c₁ c', Derives (.node .statements node) c c₁ → c₁.Step (.keyword .end_) c' →
      Q node c') : Ensures c (blockUntilEnd sub) Q := by
  refine (hsub .statements c).bind fun node c₁ hnode => ?_
  exact Ensures.bind_expect fun c' hend => Ensures.pure (h node c₁ c' hnode hend)

theorem body_derives (hsub : SubFollows sub) : Follows (body sub) .body := by
  intro c
  refine Ensures.ifAccept (fun c₁ hnewline => ?_) fun _ => ?_
  · refine (blockUntilEnd_ensures hsub fun node c₂ c' hnode hend => ?_).bind
      fun node c' h => Ensures.pure h
    exact .block hnewline hnode hend
  · exact (hsub .statement c).bind fun node c' hnode => Ensures.pure (.inline hnode)

theorem elseBody_ensures (hsub : SubFollows sub) (hkind : c.current.kind = .keyword .else_) :
    Ensures c (elseBody sub) fun otherwise c' =>
      ∃ c₁, c.Step (.keyword .else_) c₁ ∧ Derives (.body otherwise) c₁ c' :=
  Ensures.bind_discard_advance <| (body_derives hsub _).weaken fun _ _ hbody =>
    ⟨_, ⟨hkind, rfl⟩, hbody⟩

theorem arms_derives (hsub : SubFollows sub) : ∀ bound : Nat,
    Follows (arms sub bound) fun result => .arms result.1 result.2
  | 0 => fun _ => Ensures.exhausted
  | bound + 1 => by
    intro c
    -- what follows an arm that is not the last part of the `if`
    have helif : ∀ {c₁ c₂ : Cursor} {arm : Node × Body}, Derives (.arm arm) c c₁ →
        c₁.Step (.keyword .elif_) c₂ → Ensures c₂
          (do let further ← arms sub bound; return (arm :: further.1, further.2))
          fun result c' => Derives (.arms result.1 result.2) c c' := by
      intro c₁ c₂ arm harm helif
      refine (arms_derives hsub bound _).bind fun result c' hresult => ?_
      exact Ensures.pure (.arms harm helif hresult)
    have helse : ∀ {c₁ : Cursor} {arm : Node × Body}, Derives (.arm arm) c c₁ →
        c₁.current.kind = .keyword .else_ → Ensures c₁
          (do return ([arm], some (← elseBody sub)))
          fun result c' => Derives (.arms result.1 result.2) c c' := by
      intro c₁ arm harm hkind
      refine (elseBody_ensures hsub hkind).bind ?_
      rintro otherwise c' ⟨c₂, helse, hbody⟩
      exact Ensures.pure (.elseArm harm helse hbody)
    refine (hsub .expr _).bind fun condition c₁ hcondition => ?_
    refine Ensures.bind_expect fun c₂ hthen => Ensures.ifAccept (fun c₃ hnewline => ?_) fun _ => ?_
    · refine (hsub .statements _).bind fun block c₄ hblock => ?_
      have harm : Derives (.arm (condition, .mk block true)) c c₄ :=
        .blockArm hcondition hthen hnewline hblock
      refine Ensures.ifAccept (fun c' hend => Ensures.pure (.lastBlockArm harm hend)) fun _ => ?_
      refine Ensures.ifAccept (fun c₅ h => helif harm h) fun _ => Ensures.bind_peekKind ?_
      split
      · next hkind => exact helse harm hkind
      · exact Ensures.failExpecting
    · refine (hsub .statement _).bind fun statement c₃ hstatement => ?_
      have harm : Derives (.arm (condition, .mk statement false)) c c₃ :=
        .inlineArm hcondition hthen hstatement
      refine Ensures.ifAccept (fun c₄ h => helif harm h) fun _ => Ensures.bind_peekKind ?_
      split
      · next hkind => exact helse harm hkind
      · exact Ensures.pure (.lastInlineArm harm)

theorem conditional_derives (hsub : SubFollows sub) (hkind : c.current.kind = .keyword .if_) :
    Ensures c (conditional bound sub) fun node c' => Derives (.node .atom node) c c' := by
  refine Ensures.bind_advance ?_
  refine (arms_derives hsub bound _).bind fun result c' hresult => ?_
  exact Ensures.spanned (.conditional ⟨hkind, rfl⟩ hresult)

/-! ## Loops -/

/-- All loops end with their body. -/
theorem loopEnd_ensures (hsub : SubFollows sub) {first : Span} {make : Body → Span → Node}
    {Q : Node → Cursor → Prop}
    (h : ∀ body c₁ c', c.Step (.keyword .then_) c₁ → Derives (.body body) c₁ c' →
      Q (make body (c'.spanFrom first)) c') :
    Ensures c (do let body ← loopBody sub; return make body (← spanFrom first)) Q := by
  have hbody : Ensures c (loopBody sub) fun body c' =>
      ∃ c₁, c.Step (.keyword .then_) c₁ ∧ Derives (.body body) c₁ c' :=
    Ensures.bind_expect fun c₁ hthen => (body_derives hsub c₁).weaken fun body c' hbody =>
      ⟨c₁, hthen, hbody⟩
  refine hbody.bind ?_
  rintro body c' ⟨c₁, hthen, hbody⟩
  exact Ensures.spanned (h body c₁ c' hthen hbody)

theorem forLoop_derives (hsub : SubFollows sub) (hkind : c.current.kind = .keyword .for_) :
    Ensures c (forLoop sub) fun node c' => Derives (.node .atom node) c c' := by
  have hfor : c.Step (.keyword .for_) c.advance := ⟨hkind, rfl⟩
  refine Ensures.bind_advance (ident_derives.bind ?_)
  rintro name c₁ ⟨rfl, hname⟩
  refine Ensures.ifAccept (fun c₂ hcomma => ident_derives.bind ?_) fun _ => ?_
  · rintro value c₃ ⟨rfl, hvalue⟩
    refine Ensures.bind_expect fun c₄ hof => ?_
    refine (hsub .expr _).bind fun object c₅ hobject => ?_
    exact loopEnd_ensures hsub fun body c₆ c' hthen hbody =>
      .forObject hfor hname hcomma hvalue hof hobject hthen hbody
  refine Ensures.ifAccept (fun c₂ hof => ?_) fun _ => Ensures.bind_expect fun c₂ hequal => ?_
  · refine (hsub .expr _).bind fun list c₃ hlist => ?_
    exact loopEnd_ensures hsub fun body c₄ c' hthen hbody =>
      .forList hfor hname hof hlist hthen hbody
  · refine (hsub .expr _).bind fun start c₃ hstart => ?_
    refine Ensures.bind_expect fun c₄ hto => ?_
    refine (hsub .expr _).bind fun stop c₅ hstop => ?_
    refine Ensures.ifAccept (fun c₆ hstep => ?_) fun _ => ?_
    · refine (hsub .expr _).bind_map fun step c₇ hvalue => ?_
      exact loopEnd_ensures hsub fun body c₈ c' hthen hbody =>
        .forCountStep hfor hname hequal hstart hto hstop hstep hvalue hthen hbody
    · exact Ensures.bind_run rfl (loopEnd_ensures hsub fun body c₆ c' hthen hbody =>
        .forCount hfor hname hequal hstart hto hstop hthen hbody)

theorem whileLoop_derives (hsub : SubFollows sub) (hkind : c.current.kind = .keyword .while_) :
    Ensures c (whileLoop sub) fun node c' => Derives (.node .atom node) c c' := by
  refine Ensures.bind_advance ?_
  refine (hsub .expr _).bind fun condition c₁ hcondition => ?_
  exact loopEnd_ensures hsub fun body c₂ c' hthen hbody =>
    .whileLoop ⟨hkind, rfl⟩ hcondition hthen hbody

/-! ## Functions -/

theorem params_derives : ∀ (bound : Nat) (seenOptional : Bool),
    Follows (params bound seenOptional) (.params seenOptional)
  | 0, _ => fun _ => Ensures.exhausted
  | bound + 1, seenOptional => by
    intro c
    refine ident_derives.bind ?_
    rintro name c₁ ⟨rfl, hname⟩
    have hoptional : Ensures c₁ (accept (.symbol .question)) fun optional c₂ =>
        Derives (.param ⟨identOf c.current, optional⟩) c c₂ := by
      intro optional c₂ hrun
      by_cases hkind : c₁.current.kind = .symbol .question
      · rw [accept_of_eq hkind] at hrun
        cases hrun
        exact .optional hname ⟨hkind, rfl⟩
      · rw [accept_of_ne hkind] at hrun
        cases hrun
        exact .required hname
    refine hoptional.bind fun optional c₂ hparam => ?_
    split
    · exact Ensures.fail
    · next horder =>
      have hallowed : seenOptional = true → optional = true := by simpa using horder
      refine Ensures.ifAccept (fun c₃ hcomma => ?_) fun _ => ?_
      · refine (params_derives bound _ _).bind fun rest c' hrest => ?_
        exact Ensures.pure (.params hparam hallowed hcomma hrest)
      · exact Ensures.pure (.lastParam hparam hallowed)

theorem paramList_derives : Follows (paramList bound) .paramList := by
  intro c
  refine Ensures.bind_peekKind ?_
  split
  · refine (params_derives bound false _).bind fun names c₁ hnames => ?_
    exact Ensures.bind_expect fun c' hclose => Ensures.pure (.paramList hnames hclose)
  · exact Ensures.bind_expect fun c' hclose => Ensures.pure (.noParam hclose)

theorem functionBody_derives (hsub : SubFollows sub) :
    Follows (functionBody sub) fun result => .functionBody result.1 result.2 := by
  intro c
  refine Ensures.ifAccept (fun c₁ harrow => ?_) fun _ => ?_
  · exact (hsub .expr _).bind fun value c' hvalue => Ensures.pure (.arrowBody harrow hvalue)
  · refine Ensures.ifAccept (fun c₁ hnewline => ?_) fun _ => Ensures.failExpecting
    refine (blockUntilEnd_ensures hsub fun node c₂ c' hnode hend => ?_).bind
      fun node c' h => Ensures.pure h
    exact .blockBody hnewline hnode hend

theorem function_derives (hsub : SubFollows sub) (isPublic : Bool)
    (hkind : c.current.kind = .keyword .func_) :
    Ensures c (function bound sub isPublic) fun node c' =>
      Derives (.node (.definition isPublic) node) c c' := by
  -- behind the name, or where there is none
  have hrest : ∀ {c₁ : Cursor} {name : Option Ident} {kinds : List TokenKind},
      Derives (.functionName name) c.advance c₁ → Ensures c₁
        (do
          discard <| expectAmong (.symbol .leftParen) kinds
          let names ← paramList bound
          let body ← functionBody sub
          return .mk (.function (.mk name names body.1 body.2 isPublic))
            (← spanFrom c.current.span))
        fun node c' => Derives (.node (.definition isPublic) node) c c' := by
    intro c₁ name kinds hname
    refine Ensures.bind_expect fun c₂ hopen => ?_
    refine (paramList_derives _).bind fun names c₃ hnames => ?_
    refine (functionBody_derives hsub _).bind fun result c' hbody => ?_
    exact Ensures.spanned (.function ⟨hkind, rfl⟩ hname hopen hnames hbody)
  refine Ensures.bind_advance (Ensures.bind_peekKind ?_)
  split
  · refine ident_derives.bind_map ?_
    rintro name c₁ ⟨rfl, hname⟩
    exact hrest (.functionName hname)
  · exact Ensures.bind_run rfl (hrest .anonymous)

theorem visible_derives (hsub : SubFollows sub) {modifier : Keyword}
    (hmodifier : modifier = .public_ ∨ modifier = .private_)
    (hkind : c.current.kind = .keyword modifier) :
    Ensures c (visible bound sub) fun node c' => Derives (.node .atom node) c c' := by
  have hpublic : decide (c.current.kind = .keyword .public_) = decide (modifier = .public_) := by
    simp [hkind]
  refine Ensures.bind_advance (Ensures.bind_peekKind ?_)
  rw [hpublic]
  split
  · next hlet =>
    refine (declaration_derives hsub _ hlet).bind fun node c' hnode => ?_
    exact Ensures.pure (.visible hmodifier ⟨hkind, rfl⟩ hnode)
  · next hfunc =>
    refine (function_derives hsub _ hfunc).bind fun node c' hnode => ?_
    exact Ensures.pure (.visible hmodifier ⟨hkind, rfl⟩ hnode)
  · exact Ensures.failExpecting.bind (P := fun _ _ => False) fun _ _ h => h.elim

/-! ## Choices and imports -/

theorem caseBody_derives (hsub : SubFollows sub) : Follows (caseBody sub) (.node .caseBody) := by
  intro c
  refine Ensures.bind_expect fun c₁ hthen => Ensures.bind_peekKind ?_
  split
  · next hnewline =>
    exact (hsub .statements _).weaken fun node c' hnode => .blockCase hthen hnewline hnode
  · exact (hsub .statement _).weaken fun node c' hnode => .inlineCase hthen hnode

/-- The parts of a `switch` are read in the order they stand in.  A default is kept apart from the
cases, and there is at most one. -/
theorem cases_derives (hsub : SubFollows sub) :
    ∀ (bound : Nat) (otherwise : Option Node) {c : Cursor},
    Ensures c (Production.cases sub bound otherwise) fun result c' => ∃ clauses : List Clause,
      Derives (.clauses clauses) c c' ∧ result.1 = Clause.cases clauses ∧
        otherwise.toList ++ Clause.defaults clauses = result.2.toList
  | 0, _, _ => Ensures.exhausted
  | bound + 1, otherwise, c => by
    refine Ensures.bind_peekKind ?_
    split
    · next hkind =>
      refine Ensures.bind_discard_advance ?_
      refine (hsub .expr _).bind fun pattern c₁ hpattern => ?_
      refine (caseBody_derives hsub _).bind fun body c₂ hbody => Ensures.bind_skipNewlines ?_
      refine (cases_derives hsub bound otherwise).bind ?_
      rintro ⟨further, final⟩ c' ⟨clauses, hclauses, rfl, hdefault⟩
      exact Ensures.pure ⟨(some pattern, body) :: clauses,
        .caseClause ⟨hkind, rfl⟩ hpattern hbody hclauses, rfl, hdefault⟩
    · next hkind =>
      split
      · exact Ensures.bind_peek Ensures.fail
      · next hnone =>
        have hotherwise : otherwise = none := by simpa using hnone
        subst hotherwise
        refine Ensures.bind_discard_advance ?_
        refine (caseBody_derives hsub _).bind fun body c₁ hbody => Ensures.bind_skipNewlines ?_
        refine (cases_derives hsub bound (some body)).weaken ?_
        rintro result c' ⟨clauses, hclauses, hcases, hdefault⟩
        exact ⟨(none, body) :: clauses, .defaultClause ⟨hkind, rfl⟩ hbody hclauses, hcases,
          hdefault⟩
    · next hkind =>
      refine Ensures.bind_discard_advance (Ensures.pure ⟨[], .noClause ⟨hkind, rfl⟩, rfl, ?_⟩)
      exact List.append_nil _
    · exact Ensures.failExpecting

theorem switch_derives (hsub : SubFollows sub) (hkind : c.current.kind = .keyword .switch_) :
    Ensures c (switch bound sub) fun node c' => Derives (.node .atom node) c c' := by
  refine Ensures.bind_advance ?_
  refine (hsub .expr _).bind fun subject c₁ hsubject => Ensures.bind_newlines ?_
  split
  · exact Ensures.failExpecting
  · next hnewlines =>
    refine (cases_derives hsub bound none).bind ?_
    rintro ⟨further, otherwise⟩ c' ⟨clauses, hclauses, rfl, hdefault⟩
    exact Ensures.spanned (.switch ⟨hkind, rfl⟩ hsubject hnewlines hclauses hdefault)

theorem importAs_derives (hsub : SubFollows sub) (hkind : c.current.kind = .keyword .import_) :
    Ensures c (importAs sub) fun node c' => Derives (.node .atom node) c c' := by
  refine Ensures.bind_advance ?_
  refine (hsub .expr _).bind fun lib c₁ hlib => Ensures.bind_expect fun c₂ has => ?_
  refine ident_derives.bind ?_
  rintro name c' ⟨rfl, hname⟩
  exact Ensures.spanned (.importAs ⟨hkind, rfl⟩ hlib has hname)

/-! ## Expressions -/

theorem atom_derives (hsub : SubFollows sub) : Follows (atom bound sub) (.node .atom) := by
  intro c
  refine Ensures.bind_peekKind ?_
  split
  case h_1 hkind => exact number_derives (.inl hkind)
  case h_2 hkind => exact number_derives (.inr hkind)
  case h_3 hkind => exact Ensures.bind_peek (literal_ensures (.text ⟨hkind, rfl⟩))
  case h_4 hkind => exact literal_ensures (.true_ ⟨hkind, rfl⟩)
  case h_5 hkind => exact literal_ensures (.false_ ⟨hkind, rfl⟩)
  case h_6 hkind => exact literal_ensures (.null ⟨hkind, rfl⟩)
  case h_7 => exact nameOrAssignment_derives hsub c
  case h_8 hkind => exact group_derives hsub hkind
  case h_9 hkind => exact list_derives hsub hkind
  case h_10 hkind => exact object_derives hsub hkind
  case h_11 hkind => exact conditional_derives hsub hkind
  case h_12 hkind => exact forLoop_derives hsub hkind
  case h_13 hkind => exact whileLoop_derives hsub hkind
  case h_14 hkind =>
    exact (function_derives hsub false hkind).weaken fun node c' => .functionAtom hkind
  case h_15 hkind => exact switch_derives hsub hkind
  case h_16 hkind => exact importAs_derives hsub hkind
  case h_17 hkind => exact visible_derives hsub (.inl rfl) hkind
  case h_18 hkind => exact visible_derives hsub (.inr rfl) hkind
  case h_19 => exact Ensures.failExpecting

/-- Like the operators of a chain, suffixes are read one after the other. -/
theorem suffixes_derives (hsub : SubFollows sub) : ∀ (rest : Nat) {c₀ c : Cursor} (target : Node),
    Derives (.node .suffixed target) c₀ c →
    Ensures c (suffixes bound sub rest target) fun node c' => Derives (.node .suffixed node) c₀ c'
  | 0, _, _, _, _ => Ensures.exhausted
  | rest + 1, c₀, c, target, htarget => by
    refine Ensures.ifAccept (fun c₁ hdot => ident_derives.bind ?_) fun _ => ?_
    · rintro name c₂ ⟨rfl, hname⟩
      exact suffixes_derives hsub rest _ (.member htarget hdot hname)
    · refine Ensures.ifAccept (fun c₁ hopen => ?_) fun _ => Ensures.pure htarget
      refine (sequence_derives rfl (hsub .expr) _).bind fun args c₂ hargs => ?_
      exact Ensures.bind_run rfl (suffixes_derives hsub rest _ (.call htarget hopen hargs))

theorem power_derives (hsub : SubFollows sub) : Follows (power bound sub) (.node .power) := by
  intro c
  have hbase : Ensures c (suffixed bound sub) fun node c' => Derives (.node .suffixed node) c c' :=
    (atom_derives hsub c).bind fun target _ htarget =>
      suffixes_derives hsub bound target (.atom htarget)
  refine hbase.bind fun base c₁ hbase => ?_
  refine Ensures.ifAccept (fun c₂ hcaret => ?_) fun _ => Ensures.pure (.base hbase)
  refine (hsub .signed _).bind fun exponent c' hexponent => ?_
  exact Ensures.pure (.power hbase hcaret hexponent)

theorem signed_derives (hsub : SubFollows sub) : Follows (signed bound sub) (.node .signed) := by
  intro c
  refine Ensures.bind_peek ?_
  split
  · next hkind =>
    refine Ensures.bind_discard_advance ?_
    refine (hsub .signed _).bind fun operand c' hoperand => ?_
    exact Ensures.spanned (.plus ⟨hkind, rfl⟩ hoperand)
  · next hkind =>
    refine Ensures.bind_discard_advance ?_
    refine (hsub .signed _).bind fun operand c' hoperand => ?_
    exact Ensures.spanned (.minus ⟨hkind, rfl⟩ hoperand)
  · exact (power_derives hsub c).weaken fun node c' => .signed

theorem negation_derives (hsub : SubFollows sub) :
    Follows (negation bound sub) (.node .negation) := by
  intro c
  refine Ensures.bind_peek ?_
  split
  · next hkind =>
    refine Ensures.bind_discard_advance ?_
    refine (hsub .negation _).bind fun operand c' hoperand => ?_
    exact Ensures.spanned (.not ⟨hkind, rfl⟩ hoperand)
  · have hproduct : Follows (chain bound .product (signed bound sub)) (.node (.chain .product)) :=
      chain_derives (signed_derives hsub)
    have hsum : Follows (chain bound .sum _) (.node (.chain .sum)) := chain_derives hproduct
    have hcomparison : Follows (chain bound .comparison _) (.node (.chain .comparison)) :=
      chain_derives hsum
    exact (hcomparison c).weaken fun node c' => .negation

theorem expr_derives (hsub : SubFollows sub) : Follows (expr bound sub) (.node .expr) := by
  intro c
  refine Ensures.bind_peekKind ?_
  split
  · next hkind =>
    exact (declaration_derives hsub false hkind).weaken fun node c' => .letExpr hkind
  · have hconjunction : Follows (chain bound .conjunction (negation bound sub))
        (.node (.chain .conjunction)) :=
      chain_derives (negation_derives hsub)
    have hdisjunction : Follows (chain bound .disjunction _) (.node (.chain .disjunction)) :=
      chain_derives hconjunction
    exact (hdisjunction c).weaken fun node c' => .expr

/-! ## Statements -/

theorem statement_derives (hsub : SubFollows sub) :
    Follows (statement bound sub) (.node .statement) := by
  intro c
  refine Ensures.bind_peek ?_
  split
  · next hkind =>
    refine Ensures.bind_discard_advance (Ensures.bind_peekKind ?_)
    split
    · next hends => exact Ensures.spanned (.bareReturn ⟨hkind, rfl⟩ hends)
    · refine (expr_derives hsub _).bind fun value c' hvalue => ?_
      exact Ensures.spanned (.returnValue ⟨hkind, rfl⟩ hvalue)
  · next hkind => exact literal_ensures (.continueLoop ⟨hkind, rfl⟩)
  · next hkind => exact literal_ensures (.breakLoop ⟨hkind, rfl⟩)
  · exact (expr_derives hsub c).weaken fun node c' => .exprStatement

theorem furtherStatements_derives {statement : Parse Node}
    (hstatement : Follows statement (.node .statement)) : ∀ bound : Nat,
    Follows (furtherStatements false statement bound) .further
  | 0 => fun _ => Ensures.exhausted
  | bound + 1 => by
    intro c
    refine Ensures.bind_newlines ?_
    split
    · exact Ensures.pure .noFurther
    · next hnewlines =>
      refine Ensures.bind_peekKind ?_
      split
      · exact Ensures.pure .noFurther
      · refine Ensures.bind_get ?_
        split
        · next first c₁ hrun =>
          refine Ensures.bind_set ?_
          refine (furtherStatements_derives hstatement bound _).bind fun rest c' hrest => ?_
          exact Ensures.pure (.further hnewlines (hstatement _ _ _ hrun) hrest)
        · exact Ensures.fail
        · exact Ensures.exhausted

theorem statements_derives (hsub : SubFollows sub) :
    Follows (statements bound sub false) (.node .statements) := by
  intro c
  have hstatement : Follows (statement bound sub) (.node .statement) := statement_derives hsub
  refine Ensures.bind_peek (Ensures.bind_skipNewlines (Ensures.bind_peekKind ?_))
  split
  · next hcloses =>
    refine Ensures.bind_run rfl ?_
    refine (furtherStatements_derives hstatement bound _).bind fun further c' hfurther => ?_
    exact Ensures.spanned (.noStatement hcloses hfurther)
  · refine (hstatement _).bind_map fun first c₁ hfirst => ?_
    refine (furtherStatements_derives hstatement bound _).bind fun further c' hfurther => ?_
    exact Ensures.spanned (.statements hfirst hfurther)

/-! ## Programs -/

/-- All rules, by induction on the bound. -/
theorem Rule.parseWithin_derives : ∀ bound : Nat, SubFollows (Rule.parseWithin false bound)
  | 0 => fun _ _ => Ensures.exhausted
  | bound + 1 => by
    intro rule
    have hsub := parseWithin_derives bound
    cases rule with
    | expr => exact expr_derives hsub
    | statement => exact statement_derives hsub
    | statements => exact statements_derives hsub
    | negation => exact negation_derives hsub
    | signed => exact signed_derives hsub

/-- A program is a list of statements up to the end of the text. -/
theorem Rule.program_derives : Ensures c (Rule.program false) fun root c' =>
    Derives (.node .statements root) c c' ∧ c'.current.kind = .eof := by
  have hroot : Ensures c (Rule.statements.parse false) fun root c' =>
      Derives (.node .statements root) c c' :=
    Ensures.bind_get (Rule.parseWithin_derives _ .statements c)
  refine hroot.bind fun root c' hderives => Ensures.bind_peekKind ?_
  split
  · next heof => exact Ensures.pure ⟨hderives, heof⟩
  · exact Ensures.failHere

/-- **The tree of a source has a derivation**, from its first token up to the end. -/
theorem Node.derives_of_parse {source : Source} {tokens : List Token} {root : Node}
    (htokens : tokenize source = .ok tokens) (hparse : Node.parse tokens = .ok root) :
    ∃ (first : Token) (rest : List Token) (c : Cursor), tokens = first :: rest ∧
      Derives (.node .statements root) (.start first rest) c ∧ c.current.kind = .eof := by
  obtain ⟨before, last, hlast, -⟩ := Scanner.ends_of_steps _ htokens
  cases tokens with
  | nil => exact absurd hlast.symm (List.append_ne_nil_of_right_ne_nil _ (by simp))
  | cons first rest =>
    have hrun : Node.parse (first :: rest) =
        (Rule.program true (.start first rest)).map (·.1) := rfl
    rw [hrun] at hparse
    cases Rule.program_same (Cursor.ready_start htokens) with
    | read hp hq _ =>
      rw [hp] at hparse
      cases hparse
      exact ⟨first, rest, _, rfl, Rule.program_derives _ _ hq⟩
    | failed hp _ =>
      rw [hp] at hparse
      cases hparse
    | stuck _ _ hfalse => exact hfalse.elim

end BpScript
