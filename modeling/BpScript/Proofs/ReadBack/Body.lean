import BpScript.Proofs.ReadBack.Atom

/-!
# Reading bodies back

Statement lists, and the constructs that run them.  A list ends in front of a token that closes it;
a single statement ends where its expression does.

* `LineReads`, `BlockReads`, `InlineReads`, `BodyReads` — statements, lists of them, and bodies.
* `ArmsRead` — the arms of an `if`, with the `end` that only some of them need.
* `Reads.conditional`, `Reads.forCount`, `Reads.function`, `Reads.switch`, … — the constructs.
-/

namespace BpScript

open Parse Production

variable {node : Node} {words words' : List Word} {rewinds : Bool} {bound : Nat} {c c' : Cursor}
  {span : Span}

/-! ## Statements -/

/-- A statement on a line of its own.  With `trailing`, every statement is followed by a newline. -/
structure LineReads (trailing : Bool) (node : Node) (words : List Word) : Prop where
  starts {c c' : Cursor} : c.Says words c' →
    c.current.kind ≠ .newline ∧ c.current.kind.closesList = false
  gives {rewinds : Bool} {bound : Nat} {c c' : Cursor} : c.upcoming.length < bound →
    c.Says words c' →
    c'.current.kind = .newline ∨ trailing = false ∧ c'.current.kind.closesList = true →
    (Rule.statement.parseWithin rewinds bound).Gives c c' (·.erase = node.erase)

/-- The newline behind the last statement. -/
def lastLine (trailing : Bool) : List Word :=
  if trailing then [.newline] else []

theorem TokenKind.ne_newline_of_closesList {kind : TokenKind} (h : kind.closesList = true) :
    kind ≠ .newline := by
  rintro rfl
  cases h

section Lines

variable {trailing : Bool}

/-- Nothing but the newline behind the last statement is left. -/
theorem Cursor.behindNewlines_lastLine (hsaid : c.Says (lastLine trailing) c')
    (hcloses : c'.current.kind.closesList = true) : c.behindNewlines = c' := by
  have hne := TokenKind.ne_newline_of_closesList hcloses
  cases trailing with
  | true =>
    obtain ⟨hkind, hmore, rfl⟩ := hsaid
    rw [behindNewlines_of_newline hkind hmore, behindNewlines_of_ne hne]
  | false =>
    obtain rfl : c = c' := hsaid
    rw [behindNewlines_of_ne hne]

/-- What stands behind a statement: a newline, or what closes the list. -/
theorem Cursor.follow_line {parts : List (List Word)}
    (hsaid : c.Says (parts.flatMap (.newline :: ·) ++ lastLine trailing) c')
    (hcloses : c'.current.kind.closesList = true) :
    c.current.kind = .newline ∨ trailing = false ∧ c.current.kind.closesList = true := by
  cases parts with
  | cons part parts =>
    rw [List.flatMap_cons] at hsaid
    exact .inl hsaid.1
  | nil =>
    cases trailing with
    | true => exact .inl hsaid.1
    | false =>
      obtain rfl : c = c' := hsaid
      exact .inr ⟨rfl, hcloses⟩

theorem furtherStatements_gives {limit : Nat} {nodes : List Node} {parts : List (List Word)}
    (hlines : List.Forall₂ (LineReads trailing) nodes parts) (hbound : c.upcoming.length < bound)
    (hlimit : c.upcoming.length < limit)
    (hsaid : c.Says (parts.flatMap (.newline :: ·) ++ lastLine trailing) c')
    (hcloses : c'.current.kind.closesList = true) :
    (furtherStatements rewinds (Rule.statement.parseWithin rewinds limit) bound).Gives c c'
      (·.map Node.erase = nodes.map Node.erase) := by
  induction hlines generalizing bound c with
  | nil =>
    obtain ⟨bound, rfl⟩ := Nat.exists_eq_add_one_of_ne_zero (Nat.ne_zero_of_lt hbound)
    refine Gives.bind_newlines ?_
    rw [Cursor.behindNewlines_lastLine hsaid hcloses]
    split
    · exact Gives.pure rfl
    · refine Gives.bind_peekKind ?_
      rw [if_pos hcloses]
      exact Gives.pure rfl
  | @cons node part nodes parts hline _ ih =>
    obtain ⟨bound, rfl⟩ := Nat.exists_eq_add_one_of_ne_zero (Nat.ne_zero_of_lt hbound)
    simp only [List.flatMap_cons, List.cons_append, List.append_assoc] at hsaid
    obtain ⟨hkind, hne, hsaid⟩ := hsaid
    obtain ⟨c₁, hfirst, hrest⟩ := Cursor.says_append.1 hsaid
    have hlt := Cursor.advance_lt hne
    have hle := hfirst.le
    obtain ⟨hstart, hopen⟩ := hline.starts hfirst
    have hfollow := Cursor.follow_line hrest hcloses
    obtain ⟨first, hrun, hread⟩ : (Rule.statement.parseWithin rewinds limit).Gives c.advance c₁
      (·.erase = node.erase) := hline.gives (by omega) hfirst hfollow
    refine Gives.bind_newlines ?_
    rw [Cursor.newlines_of_newline hkind hne, if_neg (Nat.succ_ne_zero _),
      Cursor.behindNewlines_of_newline hkind hne, Cursor.behindNewlines_of_ne hstart]
    refine Gives.bind_peekKind ?_
    rw [hopen, if_neg Bool.false_ne_true]
    refine Gives.bind_get ?_
    rw [hrun]
    refine Gives.bind_set ?_
    refine (ih (by omega) (by omega) hrest).bind fun further hfurther => Gives.pure ?_
    rw [List.map_cons, List.map_cons, hread, hfurther]

/-- **A statement list.**  Newlines in front of it mean nothing. -/
theorem statements_gives {nodes : List Node} {parts : List (List Word)} {c₀ : Cursor}
    (hlines : List.Forall₂ (LineReads trailing) nodes parts) (hbound : c₀.upcoming.length ≤ bound)
    (hle : c.upcoming.length ≤ c₀.upcoming.length) (hfront : c₀.behindNewlines = c.behindNewlines)
    (hsaid : c.Says ([.newline].intercalate parts ++ lastLine trailing) c')
    (hcloses : c'.current.kind.closesList = true) :
    (Rule.statements.parseWithin rewinds (bound + 1)).Gives c₀ c'
      (·.erase = (Node.mk (.block nodes) span).erase) := by
  refine Gives.bind_peek (Gives.bind_skipNewlines (Gives.bind_peekKind ?_))
  rw [hfront]
  have hle' := hsaid.le
  cases hlines with
  | nil =>
    rw [Cursor.behindNewlines_lastLine hsaid hcloses, if_pos hcloses]
    refine Gives.bind_run rfl ?_
    have hnone : List.Forall₂ (LineReads false) [] [] := .nil
    have hfurther : (furtherStatements rewinds (Rule.statement.parseWithin rewinds (bound + 1))
        (bound + 1)).Gives c' c' (·.map Node.erase = []) :=
      furtherStatements_gives hnone (by omega) (by omega) rfl hcloses
    refine hfurther.bind fun further hread => Gives.spanned fun _ => ?_
    simp [Node.erase, Form.erase, eraseNodes_eq_map, hread]
  | @cons node part nodes parts hline hlines =>
    rw [intercalate_cons, List.append_assoc] at hsaid
    obtain ⟨c₁, hfirst, hrest⟩ := Cursor.says_append.1 hsaid
    obtain ⟨hstart, hopen⟩ := hline.starts hfirst
    have hle₁ := hfirst.le
    rw [Cursor.behindNewlines_of_ne hstart, hopen, if_neg Bool.false_ne_true]
    have hstatement : (Rule.statement.parseWithin rewinds (bound + 1)).Gives c c₁
        (·.erase = node.erase) :=
      hline.gives (by omega) hfirst (Cursor.follow_line hrest hcloses)
    have hfurther : (furtherStatements rewinds (Rule.statement.parseWithin rewinds (bound + 1))
        (bound + 1)).Gives c₁ c' (·.map Node.erase = nodes.map Node.erase) :=
      furtherStatements_gives hlines (by omega) (by omega) hrest hcloses
    refine hstatement.bind_map fun first hread => ?_
    refine hfurther.bind fun further hread' => Gives.spanned fun _ => ?_
    simp [Node.erase, Form.erase, eraseNodes_eq_map, List.singleton, hread, hread']

end Lines

/-! ## Bodies -/

/-- A statement list, in front of what closes it. -/
structure BlockReads (node : Node) (words : List Word) : Prop where
  gives {rewinds : Bool} {bound : Nat} {c c' : Cursor} : c.upcoming.length < bound →
    c.Says words c' → c'.current.kind.closesList = true →
    (Rule.statements.parseWithin rewinds bound).Gives c c' (·.erase = node.erase)
  gives_newline {rewinds : Bool} {bound : Nat} {c c' : Cursor} : c.upcoming.length < bound →
    c.Says (.newline :: words) c' → c'.current.kind.closesList = true →
    (Rule.statements.parseWithin rewinds bound).Gives c c' (·.erase = node.erase)

theorem BlockReads.of_lines {trailing : Bool} {nodes : List Node} {parts : List (List Word)}
    (hlines : List.Forall₂ (LineReads trailing) nodes parts) :
    BlockReads (.mk (.block nodes) span) ([.newline].intercalate parts ++ lastLine trailing) where
  gives {rewinds bound c c'} hbound hsaid hcloses := by
    obtain ⟨bound, rfl⟩ := Nat.exists_eq_add_one_of_ne_zero (Nat.ne_zero_of_lt hbound)
    exact statements_gives hlines (Nat.le_of_lt_succ hbound) (Nat.le_refl _) rfl hsaid hcloses
  gives_newline {rewinds bound c c'} hbound hsaid hcloses := by
    obtain ⟨bound, rfl⟩ := Nat.exists_eq_add_one_of_ne_zero (Nat.ne_zero_of_lt hbound)
    obtain ⟨hkind, hne, hsaid⟩ := hsaid
    exact statements_gives hlines (Nat.le_of_lt_succ hbound) (Cursor.advance_lt hne).le
      (Cursor.behindNewlines_of_newline hkind hne) hsaid hcloses

/-- A single statement that runs in place of a block. -/
structure InlineReads (node : Node) (words : List Word) : Prop where
  starts {c c' : Cursor} : c.Says words c' → c.current.kind ≠ .newline
  gives {rewinds : Bool} {bound : Nat} {c c' : Cursor} : c.upcoming.length < bound →
    c.Says words c' → c'.current.kind.binding ≤ .whole →
    (Rule.statement.parseWithin rewinds bound).Gives c c' (·.erase = node.erase)

/-- A block with its `end`. -/
theorem blockUntilEnd_gives {sub : Rule → Parse Node} {Q : Node → Prop}
    (h : (sub .statements).Gives c c' Q) (hend : c'.current.kind = .keyword .end_) :
    (blockUntilEnd sub).Gives c c'.advance Q :=
  h.bind fun _ hread => Gives.bind_expect hend (Gives.pure hread)

/-- What an arm or a loop runs. -/
inductive BodyReads : Body → List Word → Prop where
  | block {node : Node} {words : List Word} : BlockReads node words →
      BodyReads (.mk node true) (.newline :: words)
  | inline {node : Node} {words : List Word} : InlineReads node words →
      BodyReads (.mk node false) words

/-- A body with what closes it. -/
theorem BodyReads.gives {body : Body} (h : BodyReads body words)
    (hbound : c.upcoming.length < bound) (hsaid : c.Says (words ++ body.closing) c')
    (hbinding : c'.current.kind.binding ≤ .whole) :
    (Production.body (Rule.parseWithin rewinds bound)).Gives c c' (·.erase = body.erase) := by
  cases h with
  | block h =>
    obtain ⟨hkind, hne, hsaid⟩ := hsaid
    obtain ⟨c₁, hblock, hend, hne', rfl⟩ := Cursor.says_append.1 hsaid
    have hlt := Cursor.advance_lt hne
    have hend : c₁.current.kind = .keyword .end_ := hend
    have hblock' : (Rule.statements.parseWithin rewinds bound).Gives c.advance c₁
        (·.erase = _) := h.gives (by omega) hblock (by rw [hend]; rfl)
    refine Gives.ifAccept hkind ?_
    refine (blockUntilEnd_gives hblock' hend).bind fun read hread => Gives.pure ?_
    rw [Body.erase, Body.erase, hread]
  | inline h =>
    have hsaid : c.Says words c' := by simpa [Body.closing, Body.isBlock] using hsaid
    refine Gives.unlessAccept (h.starts hsaid) ?_
    refine (h.gives hbound hsaid hbinding).bind fun read hread => Gives.pure ?_
    rw [Body.erase, Body.erase, hread]

/-! ## Conditionals -/

/-- A condition with its body, which is a block or a single statement. -/
theorem arm_gives {α : Type} {Q : α → Prop} {condition : Node} {body : Body} {c₁ : Cursor}
    {k l : Node → Node → Parse α} (hcondition : Reads condition .whole words)
    (hbody : BodyReads body words') (hbound : c.upcoming.length < bound)
    (hsaid : c.Says (words ++ .keyword .then_ :: words') c₁)
    (hcloses : body.isBlock = true → c₁.current.kind.closesList = true)
    (hbinding : body.isBlock = false → c₁.current.kind.binding ≤ .whole)
    (hblock : body.isBlock = true → ∀ condition' node', condition'.erase = condition.erase →
      (Body.mk node' true).erase = body.erase → (k condition' node').Gives c₁ c' Q)
    (hinline : body.isBlock = false → ∀ condition' node', condition'.erase = condition.erase →
      (Body.mk node' false).erase = body.erase → (l condition' node').Gives c₁ c' Q) :
    Gives (do
      let condition ← Rule.expr.parseWithin rewinds bound
      discard <| expect (.keyword .then_)
      if ← accept .newline then
        let block ← Rule.statements.parseWithin rewinds bound
        k condition block
      else
        let statement ← Rule.statement.parseWithin rewinds bound
        l condition statement) c c' Q := by
  obtain ⟨c₂, hfirst, hthen, hne, hrest⟩ := Cursor.says_append.1 hsaid
  have hthen : c₂.current.kind = .keyword .then_ := hthen
  have hle := hfirst.le
  have hlt := Cursor.advance_lt hne
  refine (hcondition.gives_expr hbound hfirst (by rw [hthen]; decide)).bind
    fun condition' hcondition' => Gives.bind_expect hthen ?_
  cases hbody with
  | block h =>
    obtain ⟨hnewline, hne', hrest⟩ := hrest
    have hlt' := Cursor.advance_lt hne'
    refine Gives.ifAccept hnewline ?_
    refine (h.gives (by omega) hrest (hcloses rfl)).bind fun node' hread => ?_
    exact hblock rfl condition' node' hcondition' (by rw [Body.erase, Body.erase, hread])
  | inline h =>
    refine Gives.unlessAccept (h.starts hrest) ?_
    refine (h.gives (by omega) hrest (hbinding rfl)).bind fun node' hread => ?_
    exact hinline rfl condition' node' hcondition' (by rw [Body.erase, Body.erase, hread])

/-- The words of the arms of an `if`.  Only a block at the very end needs an `end`. -/
inductive ArmsRead : List (Node × Body) → Option Body → List Word → Prop where
  | last {condition : Node} {body : Body} {words words' : List Word} :
      Reads condition .whole words → BodyReads body words' →
      ArmsRead [(condition, body)] none (words ++ .keyword .then_ :: words' ++ body.closing)
  | otherwise {condition : Node} {body other : Body} {words words' words'' : List Word} :
      Reads condition .whole words → BodyReads body words' → BodyReads other words'' →
      ArmsRead [(condition, body)] (some other)
        (words ++ .keyword .then_ :: words' ++ .keyword .else_ :: (words'' ++ other.closing))
  | next {condition : Node} {body : Body} {arms : List (Node × Body)} {otherwise : Option Body}
      {words words' words'' : List Word} :
      Reads condition .whole words → BodyReads body words' → ArmsRead arms otherwise words'' →
      ArmsRead ((condition, body) :: arms) otherwise
        (words ++ .keyword .then_ :: words' ++ .keyword .elif_ :: words'')

/-- What is read of an `if`, without places. -/
def eraseConditional (read : List (Node × Body) × Option Body) :
    List (Node × Body) × Option Body :=
  (eraseArms read.1, read.2.map Body.erase)

section Arms

variable {condition : Node} {body : Body} {words'' : List Word} {limit : Nat}

/-- The last arm.  A block is closed by `end`, and behind a statement nothing goes on. -/
theorem lastArm_gives (hcondition : Reads condition .whole words) (hbody : BodyReads body words')
    (hlimit : c.upcoming.length < limit)
    (hsaid : c.Says (words ++ .keyword .then_ :: words' ++ body.closing) c')
    (hbinding : c'.current.kind.binding ≤ .loose) :
    (Production.arms (Rule.parseWithin rewinds limit) (bound + 1)).Gives c c'
      (eraseConditional · = eraseConditional ([(condition, body)], none)) := by
  obtain ⟨c₁, hfront, hclosing⟩ := Cursor.says_append.1 hsaid
  have hend : body.isBlock = true → c₁.current.kind = .keyword .end_ ∧ c₁.advance = c' := by
    intro hblock
    rw [Body.closing, if_pos hblock] at hclosing
    exact ⟨hclosing.1, hclosing.2.2⟩
  have hstop : body.isBlock = false → c₁ = c' := by
    intro hinline
    rwa [Body.closing, if_neg (by simp [hinline])] at hclosing
  unfold Production.arms
  refine arm_gives hcondition hbody hlimit hfront (fun hblock => ?_) (fun hinline => ?_)
    (fun hblock condition' node' hcondition' hbody' => ?_)
    fun hinline condition' node' hcondition' hbody' => ?_
  · rw [(hend hblock).1]
    rfl
  · rw [hstop hinline]
    exact Nat.le_trans hbinding (by decide)
  · obtain ⟨hkind, rfl⟩ := hend hblock
    refine Gives.ifAccept hkind (Gives.pure ?_)
    simp [eraseConditional, eraseArms, hcondition', hbody']
  · obtain rfl := hstop hinline
    have hother : ∀ {kind : TokenKind}, ¬kind.binding ≤ .loose → c₁.current.kind ≠ kind :=
      fun hkind heq => hkind (heq ▸ hbinding)
    refine Gives.unlessAccept (hother (by decide)) (Gives.bind_peekKind ?_)
    rw [if_neg (hother (by decide))]
    exact Gives.pure (by simp [eraseConditional, eraseArms, hcondition', hbody'])

/-- An arm, and what runs if no condition holds. -/
theorem elseArm_gives {other : Body} (hcondition : Reads condition .whole words)
    (hbody : BodyReads body words') (hother : BodyReads other words'')
    (hlimit : c.upcoming.length < limit)
    (hsaid : c.Says (words ++ .keyword .then_ :: words' ++
      .keyword .else_ :: (words'' ++ other.closing)) c')
    (hbinding : c'.current.kind.binding ≤ .loose) :
    (Production.arms (Rule.parseWithin rewinds limit) (bound + 1)).Gives c c'
      (eraseConditional · = eraseConditional ([(condition, body)], some other)) := by
  obtain ⟨c₁, hfront, helse, hne, hsaid⟩ := Cursor.says_append.1 hsaid
  have helse : c₁.current.kind = .keyword .else_ := helse
  have hle := hfront.le
  have hlt := Cursor.advance_lt hne
  have hother' : (elseBody (Rule.parseWithin rewinds limit)).Gives c₁ c' (·.erase = other.erase) :=
    Gives.bind_discard_advance (hother.gives (by omega) hsaid (Nat.le_trans hbinding (by decide)))
  unfold Production.arms
  refine arm_gives hcondition hbody hlimit hfront (fun _ => by rw [helse]; rfl)
    (fun _ => by rw [helse]; decide) (fun _ condition' node' hcondition' hbody' => ?_)
    fun _ condition' node' hcondition' hbody' => ?_
  · refine Gives.unlessAccept (by rw [helse]; decide) ?_
    refine Gives.unlessAccept (by rw [helse]; decide) (Gives.bind_peekKind ?_)
    rw [if_pos helse]
    refine hother'.bind fun other' hread => Gives.pure ?_
    simp [eraseConditional, eraseArms, hcondition', hbody', hread]
  · refine Gives.unlessAccept (by rw [helse]; decide) (Gives.bind_peekKind ?_)
    rw [if_pos helse]
    refine hother'.bind fun other' hread => Gives.pure ?_
    simp [eraseConditional, eraseArms, hcondition', hbody', hread]

/-- An arm in front of others. -/
theorem elifArm_gives {arms : List (Node × Body)} {otherwise : Option Body} {c₁ : Cursor}
    (hcondition : Reads condition .whole words) (hbody : BodyReads body words')
    (hlimit : c.upcoming.length < limit) (hfront : c.Says (words ++ .keyword .then_ :: words') c₁)
    (helif : c₁.current.kind = .keyword .elif_)
    (hfurther : (Production.arms (Rule.parseWithin rewinds limit) bound).Gives c₁.advance c'
      (eraseConditional · = eraseConditional (arms, otherwise))) :
    (Production.arms (Rule.parseWithin rewinds limit) (bound + 1)).Gives c c'
      (eraseConditional · = eraseConditional ((condition, body) :: arms, otherwise)) := by
  unfold Production.arms
  refine arm_gives hcondition hbody hlimit hfront (fun _ => by rw [helif]; rfl)
    (fun _ => by rw [helif]; decide) (fun _ condition' node' hcondition' hbody' => ?_)
    fun _ condition' node' hcondition' hbody' => ?_
  · refine Gives.unlessAccept (by rw [helif]; decide) (Gives.ifAccept helif ?_)
    refine hfurther.bind fun further hread => Gives.pure ?_
    simp_all [eraseConditional, eraseArms]
  · refine Gives.ifAccept helif (hfurther.bind fun further hread => Gives.pure ?_)
    simp_all [eraseConditional, eraseArms]

theorem ArmsRead.gives {arms : List (Node × Body)} {otherwise : Option Body}
    (h : ArmsRead arms otherwise words) (hbound : c.upcoming.length < bound)
    (hlimit : c.upcoming.length < limit) (hsaid : c.Says words c')
    (hbinding : c'.current.kind.binding ≤ .loose) :
    (Production.arms (Rule.parseWithin rewinds limit) bound).Gives c c'
      (eraseConditional · = eraseConditional (arms, otherwise)) := by
  induction h generalizing bound c with
  | last hcondition hbody =>
    obtain ⟨bound, rfl⟩ := Nat.exists_eq_add_one_of_ne_zero (Nat.ne_zero_of_lt hbound)
    exact lastArm_gives hcondition hbody hlimit hsaid hbinding
  | otherwise hcondition hbody hother =>
    obtain ⟨bound, rfl⟩ := Nat.exists_eq_add_one_of_ne_zero (Nat.ne_zero_of_lt hbound)
    exact elseArm_gives hcondition hbody hother hlimit hsaid hbinding
  | next hcondition hbody _ ih =>
    obtain ⟨bound, rfl⟩ := Nat.exists_eq_add_one_of_ne_zero (Nat.ne_zero_of_lt hbound)
    obtain ⟨c₁, hfront, helif, hne, hsaid⟩ := Cursor.says_append.1 hsaid
    have hle := hfront.le
    have hlt := Cursor.advance_lt hne
    exact elifArm_gives hcondition hbody hlimit hfront helif (ih (by omega) (by omega) hsaid)

end Arms

namespace Reads

theorem conditional {arms : List (Node × Body)} {otherwise : Option Body}
    (h : ArmsRead arms otherwise words) :
    Reads (.mk (.ifElse arms otherwise) span) .loose (.keyword .if_ :: words) := by
  refine of_token id rfl ?_
  intro rewinds bound c c' hkind hbound hsaid hbinding
  refine Gives.bind_peekKind ?_
  rw [hkind]
  refine Gives.bind_advance ?_
  refine (h.gives (Nat.lt_succ_of_lt hbound) hbound hsaid hbinding).bind fun read hread => ?_
  refine Gives.spanned fun _ => ?_
  simp only [eraseConditional, Prod.mk.injEq] at hread
  simp [Node.erase, Form.erase_ifElse, hread]

/-! ## Loops -/

theorem loopBody_gives {body : Body} (h : BodyReads body words) (hbound : c.upcoming.length < bound)
    (hsaid : c.Says (.keyword .then_ :: (words ++ body.closing)) c')
    (hbinding : c'.current.kind.binding ≤ .loose) :
    (loopBody (Rule.parseWithin rewinds bound)).Gives c c' (·.erase = body.erase) := by
  obtain ⟨hthen, hne, hsaid⟩ := hsaid
  have hlt := Cursor.advance_lt hne
  exact Gives.bind_expect hthen (h.gives (by omega) hsaid (Nat.le_trans hbinding (by decide)))

theorem whileLoop {condition : Node} {body : Body} (hcondition : Reads condition .whole words)
    (hbody : BodyReads body words') :
    Reads (.mk (.whileLoop condition body) span) .loose
      (.keyword .while_ :: words ++ .keyword .then_ :: words' ++ body.closing) := by
  simp only [List.cons_append, List.append_assoc]
  refine of_token id rfl ?_
  intro rewinds bound c c' hkind hbound hsaid hbinding
  obtain ⟨c₁, hfirst, hrest⟩ := Cursor.says_append.1 hsaid
  have hthen : c₁.current.kind = .keyword .then_ := hrest.1
  have hle := hfirst.le
  refine Gives.bind_peekKind ?_
  rw [hkind]
  refine Gives.bind_advance ?_
  refine (hcondition.gives_expr hbound hfirst (by rw [hthen]; decide)).bind
    fun condition' hread => ?_
  refine (loopBody_gives hbody (by omega) hrest hbinding).bind fun body' hread' => ?_
  exact Gives.spanned fun _ => by simp [Node.erase, Form.erase, hread, hread']

theorem forList {ident : Ident} {list : Node} {body : Body} (hlist : Reads list .whole words)
    (hbody : BodyReads body words') :
    Reads (.mk (.forList ident list body) span) .loose
      (.keyword .for_ :: .ident ident.name :: .keyword .of_ :: words ++
        .keyword .then_ :: words' ++ body.closing) := by
  simp only [List.cons_append, List.append_assoc]
  refine of_token id rfl ?_
  rintro rewinds bound c c' hkind hbound ⟨⟨hident, hlexeme⟩, hne, hof, hne', hsaid⟩ hbinding
  obtain ⟨c₁, hfirst, hrest⟩ := Cursor.says_append.1 hsaid
  have hthen : c₁.current.kind = .keyword .then_ := hrest.1
  have hof : c.advance.advance.current.kind = .keyword .of_ := hof
  have hlt := Cursor.advance_lt hne
  have hlt' := Cursor.advance_lt hne'
  have hle := hfirst.le
  refine Gives.bind_peekKind ?_
  rw [hkind]
  refine Gives.bind_advance (Gives.bind_ident hident ?_)
  refine Gives.unlessAccept (by rw [hof]; decide) (Gives.ifAccept hof ?_)
  refine (hlist.gives_expr (by omega) hfirst (by rw [hthen]; decide)).bind fun list' hread => ?_
  refine (loopBody_gives hbody (by omega) hrest hbinding).bind fun body' hread' => ?_
  exact Gives.spanned fun _ => by
    simp [Node.erase, Form.erase, erase_identOf hlexeme, hread, hread']

theorem forObject {key value : Ident} {object : Node} {body : Body}
    (hobject : Reads object .whole words) (hbody : BodyReads body words') :
    Reads (.mk (.forObject key value object body) span) .loose
      (.keyword .for_ :: .ident key.name :: .symbol .comma :: .ident value.name :: .keyword .of_ ::
        words ++ .keyword .then_ :: words' ++ body.closing) := by
  simp only [List.cons_append, List.append_assoc]
  refine of_token id rfl ?_
  rintro rewinds bound c c' hkind hbound
    ⟨⟨hkey, hlexeme⟩, hne₁, hcomma, hne₂, ⟨hvalue, hlexeme'⟩, hne₃, hof, hne₄, hsaid⟩ hbinding
  obtain ⟨c₁, hfirst, hrest⟩ := Cursor.says_append.1 hsaid
  have hthen : c₁.current.kind = .keyword .then_ := hrest.1
  have hlt₁ := Cursor.advance_lt hne₁
  have hlt₂ := Cursor.advance_lt hne₂
  have hlt₃ := Cursor.advance_lt hne₃
  have hlt₄ := Cursor.advance_lt hne₄
  have hle := hfirst.le
  refine Gives.bind_peekKind ?_
  rw [hkind]
  refine Gives.bind_advance (Gives.bind_ident hkey (Gives.ifAccept hcomma ?_))
  refine Gives.bind_ident hvalue (Gives.bind_expect hof ?_)
  refine (hobject.gives_expr (by omega) hfirst (by rw [hthen]; decide)).bind fun object' hread => ?_
  refine (loopBody_gives hbody (by omega) hrest hbinding).bind fun body' hread' => ?_
  exact Gives.spanned fun _ => by
    simp [Node.erase, Form.erase, erase_identOf hlexeme, erase_identOf hlexeme', hread, hread']

/-- The words of the step of a counting loop. -/
inductive StepReads : Option Node → List Word → Prop where
  | none : StepReads none []
  | some {step : Node} {words : List Word} : Reads step .whole words →
      StepReads (some step) (.keyword .step_ :: words)

theorem forCount {ident : Ident} {first last : Node} {step : Option Node} {body : Body}
    {firstWords lastWords stepWords : List Word} (hfirst : Reads first .whole firstWords)
    (hlast : Reads last .whole lastWords) (hstep : StepReads step stepWords)
    (hbody : BodyReads body words) :
    Reads (.mk (.forCount ident first last step body) span) .loose
      (.keyword .for_ :: .ident ident.name :: .symbol .equal :: firstWords ++
        .keyword .to_ :: lastWords ++
          (stepWords ++ .keyword .then_ :: (words ++ body.closing))) := by
  simp only [List.cons_append, List.append_assoc]
  refine of_token id rfl ?_
  rintro rewinds bound c c' hkind hbound ⟨⟨hident, hlexeme⟩, hne, hequal, hne', hsaid⟩ hbinding
  obtain ⟨c₁, hsaid₁, hto, hne₁, hsaid⟩ := Cursor.says_append.1 hsaid
  obtain ⟨c₂, hsaid₂, hsaid⟩ := Cursor.says_append.1 hsaid
  have hequal : c.advance.advance.current.kind = .symbol .equal := hequal
  have hto : c₁.current.kind = .keyword .to_ := hto
  have hlt := Cursor.advance_lt hne
  have hlt' := Cursor.advance_lt hne'
  have hlt₁ := Cursor.advance_lt hne₁
  have hle₁ := hsaid₁.le
  have hle₂ := hsaid₂.le
  refine Gives.bind_peekKind ?_
  rw [hkind]
  refine Gives.bind_advance (Gives.bind_ident hident ?_)
  refine Gives.unlessAccept (by rw [hequal]; decide) ?_
  refine Gives.unlessAccept (by rw [hequal]; decide) (Gives.bind_expect hequal ?_)
  refine (hfirst.gives_expr (by omega) hsaid₁ (by rw [hto]; decide)).bind fun first' hread₁ => ?_
  refine Gives.bind_expect hto ?_
  cases hstep with
  | none =>
    have hthen : c₂.current.kind = .keyword .then_ := hsaid.1
    refine (hlast.gives_expr (by omega) hsaid₂ (by rw [hthen]; decide)).bind fun last' hread₂ => ?_
    refine Gives.unlessAccept (by rw [hthen]; decide) (Gives.bind_run rfl ?_)
    refine (loopBody_gives hbody (by omega) hsaid hbinding).bind fun body' hread' => ?_
    exact Gives.spanned fun _ => by
      simp [Node.erase, Form.erase, erase_identOf hlexeme, hread₁, hread₂, hread']
  | some hstep =>
    obtain ⟨hkeyword, hne₂, hsaid⟩ := hsaid
    obtain ⟨c₃, hsaid₃, hsaid⟩ := Cursor.says_append.1 hsaid
    have hkeyword : c₂.current.kind = .keyword .step_ := hkeyword
    have hthen : c₃.current.kind = .keyword .then_ := hsaid.1
    have hlt₂ := Cursor.advance_lt hne₂
    have hle₃ := hsaid₃.le
    refine (hlast.gives_expr (by omega) hsaid₂ (by rw [hkeyword]; decide)).bind
      fun last' hread₂ => Gives.ifAccept hkeyword ?_
    refine (hstep.gives_expr (by omega) hsaid₃ (by rw [hthen]; decide)).bind_map
      fun step' hread₃ => ?_
    refine (loopBody_gives hbody (by omega) hsaid hbinding).bind fun body' hread' => ?_
    exact Gives.spanned fun _ => by
      simp [Node.erase, Form.erase, erase_identOf hlexeme, hread₁, hread₂, hread₃, hread']

end Reads

/-! ## Functions -/

/-- Behind the name of a parameter stands a question mark if it is optional. -/
theorem accept_mark {optional : Bool}
    (hmark : c.Says (if optional then [.symbol .question] else []) c')
    (hother : c'.current.kind ≠ .symbol .question) :
    accept (.symbol .question) c = .ok (optional, c') := by
  cases optional with
  | true =>
    obtain ⟨hquestion, -, rfl⟩ := hmark
    exact accept_of_eq hquestion
  | false =>
    obtain rfl : c = c' := hmark
    exact accept_of_ne hother

/-- A required parameter does not follow an optional one, so no parameter list is refused. -/
theorem params_gives : ∀ {bound : Nat} {first : Param} {rest : List Param} {seenOptional : Bool}
    {c c' : Cursor},
    (first :: rest).Pairwise (fun p q => p.optional = true → q.optional = true) →
    (seenOptional = true → first.optional = true) → c.upcoming.length < bound →
    c.Says (first.words ++ rest.flatMap (.symbol .comma :: ·.words)) c' →
    c'.current.kind = .symbol .rightParen →
    (params bound seenOptional).Gives c c'
      (·.map Param.erase = (first :: rest).map Param.erase)
  | 0, _, _, _, _, _, _, _, hbound, _, _ => absurd hbound (Nat.not_lt_zero _)
  | bound + 1, first, rest, seenOptional, c, c', horder, hseen, hbound, hsaid, hclose => by
    obtain ⟨c₁, ⟨⟨hkind, hlexeme⟩, hne, hmark⟩, hrest⟩ := Cursor.says_append.1 hsaid
    have hlt := Cursor.advance_lt hne
    have hle : c₁.upcoming.length ≤ c.advance.upcoming.length := Cursor.Says.le hmark
    have hother : c₁.current.kind ≠ .symbol .question := by
      cases rest with
      | nil =>
        obtain rfl : c₁ = c' := hrest
        exact hclose.trans_ne (by decide)
      | cons _ _ =>
        rw [List.flatMap_cons] at hrest
        have hcomma : c₁.current.kind = .symbol .comma := hrest.1
        exact hcomma.trans_ne (by decide)
    have haccept : accept (.symbol .question) c.advance = .ok (first.optional, c₁) :=
      accept_mark hmark hother
    refine Gives.bind_ident hkind (Gives.bind_run haccept ?_)
    have hallowed : (seenOptional && !first.optional) = false := by
      cases seenOptional <;> simp_all
    rw [hallowed, if_neg Bool.false_ne_true]
    have hparam : (Param.mk (identOf c.current) first.optional).erase = first.erase := by
      rw [Param.erase, Param.erase, erase_identOf hlexeme]
    cases rest with
    | nil =>
      obtain rfl : c₁ = c' := hrest
      refine Gives.unlessAccept (by rw [hclose]; decide) (Gives.pure ?_)
      simp [hparam]
    | cons second rest =>
      rw [List.flatMap_cons] at hrest
      obtain ⟨hcomma, hne', hrest⟩ := hrest
      have hlt' := Cursor.advance_lt hne'
      obtain ⟨hsecond, horder'⟩ := List.pairwise_cons.1 horder
      have hseen' : (seenOptional || first.optional) = true → second.optional = true := by
        intro hor
        refine hsecond second List.mem_cons_self ?_
        cases seenOptional <;> simp_all
      refine Gives.ifAccept hcomma ?_
      refine (params_gives horder' hseen' (by omega) hrest hclose).bind fun further hread => ?_
      exact Gives.pure (by simp [hparam, hread])

theorem paramList_gives {params : List Param}
    (horder : params.Pairwise fun p q => p.optional = true → q.optional = true)
    (hbound : c.upcoming.length < bound)
    (hsaid : c.Says (commas (params.map Param.words) ++ [.symbol .rightParen]) c') :
    (paramList bound).Gives c c' (·.map Param.erase = params.map Param.erase) := by
  obtain ⟨c₁, hparams, hclose, hne, rfl⟩ := Cursor.says_append.1 hsaid
  have hclose : c₁.current.kind = .symbol .rightParen := hclose
  refine Gives.bind_peekKind ?_
  cases params with
  | nil =>
    obtain rfl : c = c₁ := hparams
    rw [hclose, if_neg (by decide)]
    exact Gives.bind_expect hclose (Gives.pure rfl)
  | cons first rest =>
    rw [List.map_cons, commas, intercalate_cons, List.flatMap_map] at hparams
    have hident : c.current.kind = .ident := hparams.1.1
    rw [if_pos hident]
    refine (params_gives horder (fun h => by cases h) hbound hparams hclose).bind
      fun params' hread => ?_
    exact Gives.bind_expect hclose (Gives.pure hread)

/-- The words of the body of a function. -/
inductive FunctionBodyReads : Node → (autoReturn : Bool) → List Word → Prop where
  | arrow {body : Node} {words : List Word} : Reads body .whole words →
      FunctionBodyReads body true (.symbol .arrow :: words)
  | block {body : Node} {words : List Word} : BlockReads body words →
      FunctionBodyReads body false (.newline :: words ++ [.keyword .end_])

theorem FunctionBodyReads.gives {body : Node} {autoReturn : Bool}
    (h : FunctionBodyReads body autoReturn words) (hbound : c.upcoming.length < bound)
    (hsaid : c.Says words c') (hbinding : c'.current.kind.binding ≤ .loose) :
    (functionBody (Rule.parseWithin rewinds bound)).Gives c c'
      (fun read => (read.1.erase, read.2) = (body.erase, autoReturn)) := by
  cases h with
  | arrow h =>
    obtain ⟨harrow, hne, hsaid⟩ := hsaid
    have hlt := Cursor.advance_lt hne
    refine Gives.ifAccept harrow ?_
    refine (h.gives_expr (by omega) hsaid (Nat.le_trans hbinding (by decide))).bind
      fun body' hread => Gives.pure ?_
    rw [hread]
  | block h =>
    obtain ⟨hnewline, hne, hsaid⟩ := hsaid
    obtain ⟨c₁, hblock, hend, -, rfl⟩ := Cursor.says_append.1 hsaid
    have hnewline : c.current.kind = .newline := hnewline
    have hend : c₁.current.kind = .keyword .end_ := hend
    have hlt := Cursor.advance_lt hne
    have hblock' : (Rule.statements.parseWithin rewinds bound).Gives c.advance c₁
        (·.erase = body.erase) := h.gives (by omega) hblock (by rw [hend]; rfl)
    refine Gives.unlessAccept (by rw [hnewline]; decide) (Gives.ifAccept hnewline ?_)
    refine Gives.bind (blockUntilEnd_gives hblock' hend) fun body' hread => Gives.pure ?_
    rw [hread]

namespace Reads

section

variable {name : Option Ident} {params : List Param} {body : Node} {autoReturn isPublic : Bool}

/-- A function from its parameters on, behind its name or where it has none. -/
theorem signature_gives {first : Span} {name' : Option Ident} {kinds : List TokenKind}
    (horder : params.Pairwise fun p q => p.optional = true → q.optional = true)
    (hbody : FunctionBodyReads body autoReturn words)
    (hname : name'.map Ident.erase = name.map Ident.erase) (hbound : c.upcoming.length < bound)
    (hsaid : c.Says (.symbol .leftParen ::
      (commas (params.map Param.words) ++ .symbol .rightParen :: words)) c')
    (hbinding : c'.current.kind.binding ≤ .loose) :
    Gives (do
      discard <| expectAmong (.symbol .leftParen) kinds
      let names ← paramList (bound + 1)
      let body ← functionBody (Rule.parseWithin rewinds bound)
      return Node.mk (.function (.mk name' names body.1 body.2 isPublic)) (← spanFrom first)) c c'
      (·.erase = (Node.mk (.function (.mk name params body autoReturn isPublic)) span).erase) := by
  obtain ⟨hopen, hne, hsaid⟩ := hsaid
  obtain ⟨c₁, hparams, hclose, hne₁, hsaid₁⟩ := Cursor.says_append.1 hsaid
  have hlt := Cursor.advance_lt hne
  have hlt₁ := Cursor.advance_lt hne₁
  have hle := hparams.le
  have hparams' : c.advance.Says (commas (params.map Param.words) ++ [.symbol .rightParen])
      c₁.advance := Cursor.says_append.2 ⟨c₁, hparams, hclose, hne₁, rfl⟩
  refine Gives.bind_expect hopen ?_
  refine (paramList_gives horder (by omega) hparams').bind fun params' hread => ?_
  refine (hbody.gives (by omega) hsaid₁ hbinding).bind
    fun body' hread' => Gives.spanned fun _ => ?_
  simp only [Prod.mk.injEq] at hread'
  simp [Node.erase, Form.erase, hname, hread, hread']

theorem function_gives
    (horder : params.Pairwise fun p q => p.optional = true → q.optional = true)
    (hbody : FunctionBodyReads body autoReturn words) (hbound : c.upcoming.length ≤ bound)
    (hsaid : c.Says (.keyword .func_ :: name.toList.map (fun ident => .ident ident.name) ++
      .symbol .leftParen :: commas (params.map Param.words) ++ .symbol .rightParen :: words) c')
    (hbinding : c'.current.kind.binding ≤ .loose) :
    (Production.function (bound + 1) (Rule.parseWithin rewinds bound) isPublic).Gives c c'
      (·.erase = (Node.mk (.function (.mk name params body autoReturn isPublic)) span).erase) := by
  simp only [List.cons_append, List.append_assoc] at hsaid
  obtain ⟨-, hne, hsaid⟩ := hsaid
  have hlt := Cursor.advance_lt hne
  refine Gives.bind_advance (Gives.bind_peekKind ?_)
  cases name with
  | none =>
    have hopen : c.advance.current.kind = .symbol .leftParen := hsaid.1
    rw [hopen, if_neg (by decide)]
    exact Gives.bind_run rfl (signature_gives horder hbody rfl (by omega) hsaid hbinding)
  | some ident =>
    obtain ⟨⟨hident, hlexeme⟩, hne', hsaid⟩ := hsaid
    have hlt' := Cursor.advance_lt hne'
    rw [if_pos hident]
    have hname : Production.ident.Gives c.advance c.advance.advance (·.erase = ident.erase) :=
      ⟨_, run_bind_ok (Gives.run_expect hident), erase_identOf hlexeme⟩
    refine hname.bind_map fun name' hread => ?_
    exact signature_gives horder hbody (by simp [hread]) (by omega) hsaid hbinding

end

variable {name : Option Ident} {params : List Param} {body : Node} {autoReturn : Bool}

theorem function (horder : params.Pairwise fun p q => p.optional = true → q.optional = true)
    (hbody : FunctionBodyReads body autoReturn words) :
    Reads (.mk (.function (.mk name params body autoReturn false)) span) .loose
      (.keyword .func_ :: name.toList.map (fun ident => .ident ident.name) ++
        .symbol .leftParen :: commas (params.map Param.words) ++ .symbol .rightParen :: words) := by
  refine of_atom ?_ ?_
  · rintro c c' ⟨hkind, -⟩
    rw [show c.current.kind = _ from hkind]
    rfl
  · intro rewinds bound c c' hbound hsaid hbinding _
    have hkind : c.current.kind = .keyword .func_ := hsaid.1
    refine Gives.bind_peekKind ?_
    rw [hkind]
    exact function_gives horder hbody hbound hsaid hbinding

theorem publicFunction (horder : params.Pairwise fun p q => p.optional = true → q.optional = true)
    (hbody : FunctionBodyReads body autoReturn words) :
    Reads (.mk (.function (.mk name params body autoReturn true)) span) .loose
      (.keyword .public_ :: (.keyword .func_ :: name.toList.map (fun ident => .ident ident.name) ++
        .symbol .leftParen :: commas (params.map Param.words) ++
          .symbol .rightParen :: words)) := by
  refine of_token id rfl ?_
  intro rewinds bound c c' hkind hbound hsaid hbinding
  refine Gives.bind_peekKind ?_
  rw [hkind]
  refine Gives.bind_advance (Gives.bind_peekKind ?_)
  rw [show c.advance.current.kind = .keyword .func_ from hsaid.1, hkind]
  exact (function_gives horder hbody hbound.le hsaid hbinding).bind
    fun read hread => Gives.pure ((erase_withSpan _ _).trans hread)

/-! ## Choices and imports -/

theorem importAs {lib : Node} {name : Ident} (h : Reads lib .whole words) :
    Reads (.mk (.importAs lib name) span) .loose
      (.keyword .import_ :: words ++ [.keyword .as_, .ident name.name]) := by
  refine of_token id rfl ?_
  intro rewinds bound c c' hkind hbound hsaid hbinding
  obtain ⟨c₁, hlib, has, -, ⟨hident, hlexeme⟩, -, rfl⟩ := Cursor.says_append.1 hsaid
  have has : c₁.current.kind = .keyword .as_ := has
  refine Gives.bind_peekKind ?_
  rw [hkind]
  refine Gives.bind_advance ?_
  refine (h.gives_expr hbound hlib (by rw [has]; decide)).bind fun lib' hread => ?_
  refine Gives.bind_expect has (Gives.bind_ident hident (Gives.spanned fun _ => ?_))
  simp [Node.erase, Form.erase, erase_identOf hlexeme, hread]

end Reads

/-- What a case of a `switch` runs. -/
theorem BodyReads.caseBody_gives {node : Node} {isBlock : Bool}
    (h : BodyReads (.mk node isBlock) words) (hbound : c.upcoming.length < bound)
    (hsaid : c.Says (.keyword .then_ :: words) c') (hcloses : c'.current.kind.closesList = true)
    (hbinding : c'.current.kind.binding ≤ .whole) :
    (caseBody (Rule.parseWithin rewinds bound)).Gives c c' (·.erase = node.erase) := by
  obtain ⟨hthen, hne, hsaid⟩ := hsaid
  have hlt := Cursor.advance_lt hne
  refine Gives.bind_expect hthen (Gives.bind_peekKind ?_)
  cases h with
  | block h =>
    rw [if_pos (show c.advance.current.kind = .newline from hsaid.1)]
    exact h.gives_newline (by omega) hsaid hcloses
  | inline h =>
    rw [if_neg (h.starts hsaid)]
    exact h.gives (by omega) hsaid hbinding

/-- The words of the parts of a `switch`, up to and including its `end`. -/
inductive CasesRead : List (Node × Node) → Option Node → List Word → Prop where
  | stop : CasesRead [] none [.keyword .end_]
  | otherwise {body : Node} {isBlock : Bool} {words : List Word} :
      BodyReads (.mk body isBlock) words →
      CasesRead [] (some body) (.keyword .default_ :: .keyword .then_ :: words ++ [.keyword .end_])
  | case {pattern body : Node} {isBlock : Bool} {cases : List (Node × Node)}
      {otherwise : Option Node} {words words' words'' : List Word} :
      Reads pattern .whole words → BodyReads (.mk body isBlock) words' →
      CasesRead cases otherwise words'' →
      CasesRead ((pattern, body) :: cases) otherwise
        (.keyword .case_ :: words ++ .keyword .then_ :: words' ++ words'')

theorem CasesRead.starts {cases : List (Node × Node)} {otherwise : Option Node}
    (h : CasesRead cases otherwise words) (hsaid : c.Says words c') :
    c.current.kind.closesList = true ∧ c.current.kind.binding ≤ .whole := by
  cases h
  all_goals
    rw [show c.current.kind = _ from hsaid.1]
    exact ⟨rfl, by decide⟩

/-- What is read of a `switch`, without places. -/
def eraseChoice (read : List (Node × Node) × Option Node) : List (Node × Node) × Option Node :=
  (eraseCases read.1, read.2.map Node.erase)

theorem CasesRead.gives {cases : List (Node × Node)} {otherwise : Option Node} {limit : Nat}
    (h : CasesRead cases otherwise words) (hbound : c.upcoming.length < bound)
    (hlimit : c.upcoming.length < limit) (hsaid : c.Says words c') :
    (Production.cases (Rule.parseWithin rewinds limit) bound none).Gives c c'
      (eraseChoice · = eraseChoice (cases, otherwise)) := by
  induction h generalizing bound c with
  | stop =>
    obtain ⟨bound, rfl⟩ := Nat.exists_eq_add_one_of_ne_zero (Nat.ne_zero_of_lt hbound)
    obtain ⟨hend, -, rfl⟩ := hsaid
    refine Gives.bind_peekKind ?_
    rw [show c.current.kind = .keyword .end_ from hend]
    exact Gives.bind_discard_advance (Gives.pure rfl)
  | @otherwise body isBlock words hbody =>
    obtain ⟨bound, rfl⟩ := Nat.exists_eq_add_one_of_ne_zero (Nat.ne_zero_of_lt hbound)
    obtain ⟨hdefault, hne, hsaid⟩ := hsaid
    have hsaid : c.advance.Says ((.keyword .then_ :: words) ++ [.keyword .end_]) c' := hsaid
    obtain ⟨c₁, hcase, hend, -, rfl⟩ := Cursor.says_append.1 hsaid
    have hend : c₁.current.kind = .keyword .end_ := hend
    have hlt := Cursor.advance_lt hne
    have hle := hcase.le
    have hbody' : (caseBody (Rule.parseWithin rewinds limit)).Gives c.advance c₁
        (·.erase = body.erase) :=
      hbody.caseBody_gives (by omega) hcase (by rw [hend]; rfl) (by rw [hend]; decide)
    obtain ⟨bound, rfl⟩ : ∃ n, bound = n + 1 := ⟨bound - 1, by omega⟩
    refine Gives.bind_peekKind ?_
    rw [show c.current.kind = .keyword .default_ from hdefault]
    refine Gives.bind_discard_advance (hbody'.bind fun body' hread => ?_)
    refine Gives.bind_skipNewlines ?_
    rw [Cursor.behindNewlines_of_ne (by rw [hend]; decide)]
    refine Gives.bind_peekKind ?_
    rw [hend]
    exact Gives.bind_discard_advance (Gives.pure (by simp [eraseChoice, hread]))
  | @case pattern body isBlock cases otherwise words words' words'' hpattern hbody hcases ih =>
    obtain ⟨bound, rfl⟩ := Nat.exists_eq_add_one_of_ne_zero (Nat.ne_zero_of_lt hbound)
    simp only [List.cons_append, List.append_assoc] at hsaid
    obtain ⟨hkind, hne, hsaid⟩ := hsaid
    obtain ⟨c₁, hfirst, hsaid⟩ := Cursor.says_append.1 hsaid
    have hsaid : c₁.Says ((.keyword .then_ :: words') ++ words'') c' := hsaid
    obtain ⟨c₂, hcase, hrest⟩ := Cursor.says_append.1 hsaid
    have hthen : c₁.current.kind = .keyword .then_ := hcase.1
    obtain ⟨hcloses, hbinding⟩ := hcases.starts hrest
    have hlt := Cursor.advance_lt hne
    have hle := hfirst.le
    have hle' := hcase.le
    refine Gives.bind_peekKind ?_
    rw [show c.current.kind = .keyword .case_ from hkind]
    refine Gives.bind_discard_advance ?_
    refine (hpattern.gives_expr (by omega) hfirst (by rw [hthen]; decide)).bind
      fun pattern' hread => ?_
    refine (hbody.caseBody_gives (by omega) hcase hcloses hbinding).bind fun body' hread' => ?_
    refine Gives.bind_skipNewlines ?_
    rw [Cursor.behindNewlines_of_ne (TokenKind.ne_newline_of_closesList hcloses)]
    refine (ih (by omega) (by omega) hrest).bind fun further hfurther => Gives.pure ?_
    simp_all [eraseChoice, eraseCases]

namespace Reads

theorem switch {subject : Node} {cases : List (Node × Node)} {otherwise : Option Node}
    (hsubject : Reads subject .whole words) (hcases : CasesRead cases otherwise words') :
    Reads (.mk (.switch subject cases otherwise) span) .loose
      (.keyword .switch_ :: words ++ .newline :: words') := by
  refine of_token id rfl ?_
  intro rewinds bound c c' hkind hbound hsaid hbinding
  obtain ⟨c₁, hfirst, hnewline, hne, hrest⟩ := Cursor.says_append.1 hsaid
  have hnewline : c₁.current.kind = .newline := hnewline
  have hle := hfirst.le
  have hlt := Cursor.advance_lt hne
  refine Gives.bind_peekKind ?_
  rw [hkind]
  refine Gives.bind_advance ?_
  refine (hsubject.gives_expr hbound hfirst (by rw [hnewline]; decide)).bind
    fun subject' hread => Gives.bind_newlines ?_
  rw [Cursor.newlines_of_newline hnewline hne, if_neg (Nat.succ_ne_zero _),
    Cursor.behindNewlines_of_newline hnewline hne, Cursor.behindNewlines_of_ne
      (TokenKind.ne_newline_of_closesList (hcases.starts hrest).1)]
  refine (hcases.gives (by omega) (by omega) hrest).bind
    fun read hread' => Gives.spanned fun _ => ?_
  simp only [eraseChoice, Prod.mk.injEq] at hread'
  simp [Node.erase, Form.erase_switch, hread, hread']

end Reads

end BpScript
