import BpScript.Proofs.ReadBack.Body

/-!
# Trees are read back as they were written

Every tree of the language can be written down, and is read back as it was, whatever parentheses are
written beyond those that are needed.

* `Reads.enclose` — a node is read at any place, with or without parentheses.
* `Role.Reads` — what it means for expressions, statements and bodies to be read back.
* `WellFormed.reads` — all trees, by induction on how they are formed.
* **`parse_words`** — programs.
* **`expr_parse_sparing`** — expressions with no parentheses but those that their operators require.
-/

namespace BpScript

open Parse Production

variable {style : Style} {node : Node} {words words' : List Word} {rewinds : Bool} {bound : Nat}
  {c c' : Cursor} {span : Span}

/-! ## Places -/

/-- In parentheses, a node is read at any place. -/
theorem Reads.wrapped {grade place : Grade} (h : Reads node grade words) :
    Reads node place (.symbol .leftParen :: words ++ [.symbol .rightParen]) :=
  (h.loosen (Nat.zero_le _)).group.loosen (Grade.le_atom place)

namespace Style

theorem enclose_of_wraps {place : Grade} (hsignal : node.form.isSignal = false)
    (hwraps : style.wraps place node = true) :
    style.enclose place node words = .symbol .leftParen :: words ++ [.symbol .rightParen] := by
  simp [enclose, hsignal, hwraps]

end Style

/-- **A node is read at any place.**  Where its grade is too loose for the place, the style writes
parentheses around it. -/
theorem Reads.enclose (h : Reads node node.form.grade words) (hsignal : node.form.isSignal = false)
    (place : Grade) : Reads node place (style.enclose place node words) := by
  cases hwraps : style.wraps place node with
  | true =>
    rw [Style.enclose_of_wraps hsignal hwraps]
    exact h.wrapped
  | false =>
    have hgrade : ¬ node.form.grade < place := by
      intro hlt
      rw [style.covers hlt] at hwraps
      cases hwraps
    rw [Style.enclose, if_neg (by simp [hwraps])]
    exact h.loosen (Nat.le_of_not_lt hgrade)

/-! ## Statements -/

theorem TokenKind.closesList_of_opens {kind : TokenKind} {grade : Grade}
    (h : kind.opens grade = true) : kind.closesList = false := by
  unfold closesList
  split
  all_goals first | rfl | cases h

theorem TokenKind.ne_newline_of_opens {kind : TokenKind} {grade : Grade}
    (h : kind.opens grade = true) : kind ≠ .newline := by
  rintro rfl
  cases h

theorem TokenKind.binding_le_of_closesList {kind : TokenKind} (h : kind.closesList = true) :
    kind.binding ≤ .whole := by
  unfold closesList at h
  split at h
  all_goals first | decide | cases h

/-- An expression is a statement. -/
theorem statement_gives_expr {Q : Node → Prop} (hopens : c.current.kind.opens .loose = true)
    (h : (Rule.expr.parseWithin rewinds bound).Gives c c' Q) :
    (Rule.statement.parseWithin rewinds bound).Gives c c' Q := by
  cases bound with
  | zero => exact h
  | succ bound =>
    refine Gives.bind_peek ?_
    split
    case h_4 => exact h
    all_goals
      next hkind =>
      rw [hkind] at hopens
      cases hopens

theorem InlineReads.of_reads (h : Reads node .whole words) : InlineReads node words where
  starts hsaid := TokenKind.ne_newline_of_opens (h.starts hsaid)
  gives hbound hsaid hbinding :=
    statement_gives_expr (TokenKind.opens_of_le (Nat.zero_le _) (h.starts hsaid))
      (h.gives_expr hbound hsaid hbinding)

theorem LineReads.of_reads (hnewline : Reads node .loose words)
    (hcloses : style.trailing = false → Reads node .whole words) :
    LineReads style.trailing node words where
  starts hsaid :=
    ⟨TokenKind.ne_newline_of_opens (hnewline.starts hsaid),
      TokenKind.closesList_of_opens (hnewline.starts hsaid)⟩
  gives {rewinds bound c c'} hbound hsaid hfollow := by
    refine statement_gives_expr (hnewline.starts hsaid) ?_
    rcases hfollow with hkind | ⟨htrailing, hkind⟩
    · exact hnewline.gives_loose hbound hsaid (by rw [hkind]; decide)
    · exact (hcloses htrailing).gives_expr hbound hsaid (TokenKind.binding_le_of_closesList hkind)

/-- `break` and `continue`. -/
theorem signal_gives {keyword : Keyword} {form : Form}
    (hkeyword : keyword = .break_ ∧ form = .breakLoop ∨ keyword = .continue_ ∧ form = .continueLoop)
    (hbound : c.upcoming.length < bound) (hsaid : c.Says [.keyword keyword] c') :
    (Rule.statement.parseWithin rewinds bound).Gives c c'
      (·.erase = (Node.mk form span).erase) := by
  obtain ⟨bound, rfl⟩ := Nat.exists_eq_add_one_of_ne_zero (Nat.ne_zero_of_lt hbound)
  obtain ⟨hkind, -, rfl⟩ := hsaid
  refine Gives.bind_peek ?_
  rw [show c.current.kind = .keyword keyword from hkind]
  rcases hkeyword with ⟨rfl, rfl⟩ | ⟨rfl, rfl⟩
  · exact Gives.bind_advance (Gives.pure (by simp [Node.erase]))
  · exact Gives.bind_advance (Gives.pure (by simp [Node.erase]))

theorem bareReturn_gives (hbound : c.upcoming.length < bound)
    (hsaid : c.Says [.keyword .return_] c') (hends : c'.current.kind.endsStatement = true) :
    (Rule.statement.parseWithin rewinds bound).Gives c c'
      (·.erase = (Node.mk (.returnValue none) span).erase) := by
  obtain ⟨bound, rfl⟩ := Nat.exists_eq_add_one_of_ne_zero (Nat.ne_zero_of_lt hbound)
  obtain ⟨hkind, -, rfl⟩ := hsaid
  refine Gives.bind_peek ?_
  rw [show c.current.kind = .keyword .return_ from hkind]
  refine Gives.bind_discard_advance (Gives.bind_peekKind ?_)
  rw [if_pos hends]
  exact Gives.spanned fun _ => by simp [Node.erase]

theorem returnValue_gives (h : Reads node .whole words) (hbound : c.upcoming.length < bound)
    (hsaid : c.Says (.keyword .return_ :: words) c') (hbinding : c'.current.kind.binding ≤ .whole) :
    (Rule.statement.parseWithin rewinds bound).Gives c c'
      (·.erase = (Node.mk (.returnValue (some node)) span).erase) := by
  obtain ⟨bound, rfl⟩ := Nat.exists_eq_add_one_of_ne_zero (Nat.ne_zero_of_lt hbound)
  obtain ⟨hkind, hne, hsaid⟩ := hsaid
  have hlt := Cursor.advance_lt hne
  have hopens := h.starts hsaid
  have hends : c.advance.current.kind.endsStatement = false := by
    simp [TokenKind.endsStatement, TokenKind.ne_newline_of_opens hopens,
      TokenKind.closesList_of_opens hopens]
  have hvalue : (Rule.expr.parseWithin rewinds (bound + 1)).Gives c.advance c'
      (·.erase = node.erase) := h.gives_expr (by omega) hsaid hbinding
  refine Gives.bind_peek ?_
  rw [show c.current.kind = .keyword .return_ from hkind]
  refine Gives.bind_discard_advance (Gives.bind_peekKind ?_)
  rw [hends, if_neg Bool.false_ne_true]
  exact Gives.bind hvalue fun value hread =>
    Gives.spanned fun _ => by simp [Node.erase, Form.erase, hread]

/-! ## Trees -/

/-- What is read back of a node, where it stands. -/
def Role.Reads (style : Style) : Role → Node → Prop
  | .expr, node => node.form.isSignal = false ∧ node.isBlock = false ∧
      BpScript.Reads node node.form.grade (node.words style)
  | .statement, node => node.isBlock = false ∧
      LineReads style.trailing node (style.enclose .loose node (node.words style)) ∧
      (node.form ≠ .returnValue none →
        InlineReads node (style.enclose .whole node (node.words style)))
  | .body, node =>
      BodyReads (.mk node node.isBlock) (style.layOut node (node.words style))

/-- The expressions that a construct consists of stand at places of their own. -/
theorem Role.Reads.slot (h : Role.expr.Reads style node) (place : Grade) :
    BpScript.Reads node place (style.enclose place node (node.words style)) :=
  h.2.2.enclose h.1 place

theorem Role.Reads.ofBlock (h : Role.body.Reads style node) (hblock : node.isBlock = true) :
    BlockReads node (node.words style) := by
  have h : BodyReads (.mk node node.isBlock) (style.layOut node (node.words style)) := h
  rw [Style.layOut, hblock, if_pos rfl] at h
  cases h with
  | block h => exact h

theorem Role.Reads.ofBody {body : Body} (h : Role.body.Reads style body.node)
    (hblock : body.isBlock = body.node.isBlock) : BodyReads body (body.words style) := by
  obtain ⟨node, isBlock⟩ := body
  obtain rfl : isBlock = node.isBlock := hblock
  exact h

/-- `break` and `continue` stand alone or in place of a block. -/
theorem Role.Reads.ofSignal {keyword : Keyword} {form : Form}
    (hkeyword : keyword = .break_ ∧ form = .breakLoop ∨
      keyword = .continue_ ∧ form = .continueLoop) :
    Role.statement.Reads style (.mk form span) := by
  have hwords (place : Grade) :
      style.enclose place (.mk form span) ((Node.mk form span).words style) =
        [.keyword keyword] := by
    rcases hkeyword with ⟨rfl, rfl⟩ | ⟨rfl, rfl⟩ <;> rfl
  have hkind {kind : TokenKind} (h : kind = .keyword keyword) :
      kind ≠ .newline ∧ kind.closesList = false := by
    rcases hkeyword with ⟨rfl, rfl⟩ | ⟨rfl, rfl⟩ <;> rw [h] <;> decide
  refine ⟨?_, ⟨fun hsaid => ?_, fun hbound hsaid _ => ?_⟩, fun _ =>
    ⟨fun hsaid => ?_, fun hbound hsaid _ => ?_⟩⟩
  · rcases hkeyword with ⟨rfl, rfl⟩ | ⟨rfl, rfl⟩ <;> rfl
  · rw [hwords] at hsaid
    exact hkind hsaid.1
  · rw [hwords] at hsaid
    exact signal_gives hkeyword hbound hsaid
  · rw [hwords] at hsaid
    exact (hkind hsaid.1).1
  · rw [hwords] at hsaid
    exact signal_gives hkeyword hbound hsaid

/-- The arms of an `if`, one after the other; `tail` is what the last one ends with. -/
theorem armsRead_words {otherwise : Option Body} {tail : List Word} :
    ∀ {arms : List (Node × Body)} {last : Node × Body}, arms.getLast? = some last →
    (∀ arm ∈ arms, Role.expr.Reads style arm.1) →
    (∀ arm ∈ arms, BodyReads arm.2 (arm.2.words style)) →
    (BpScript.Reads last.1 .whole (style.enclose .whole last.1 (last.1.words style)) →
      BodyReads last.2 (last.2.words style) →
      ArmsRead [last] otherwise (style.enclose .whole last.1 (last.1.words style) ++
        .keyword .then_ :: last.2.words style ++ tail)) →
    ArmsRead arms otherwise ([.keyword .elif_].intercalate (armWords style arms) ++ tail)
  | [], _, hlast, _, _, _ => by cases hlast
  | [arm], _, hlast, hconditions, hbodies, htail => by
    obtain rfl : arm = _ := Option.some.inj hlast
    have hcondition := (hconditions arm List.mem_cons_self).slot .whole
    have hread := htail hcondition (hbodies arm List.mem_cons_self)
    rwa [armWords_eq_map, List.map_singleton, List.intercalate_singleton]
  | arm :: arm' :: arms, last, hlast, hconditions, hbodies, htail => by
    have hlast' : (arm' :: arms).getLast? = some last := hlast
    have hfurther := armsRead_words hlast'
      (fun a ha => hconditions a (List.mem_cons_of_mem _ ha))
      (fun a ha => hbodies a (List.mem_cons_of_mem _ ha)) htail
    have hcondition := (hconditions arm List.mem_cons_self).slot .whole
    have hnext := ArmsRead.next hcondition (hbodies arm List.mem_cons_self) hfurther
    rw [armWords_eq_map] at hnext ⊢
    simpa [List.intercalate_cons_cons] using hnext

/-- The parts of a `switch`, one after the other. -/
theorem casesRead_words {otherwise : Option Node} {tail : List Word}
    (htail : CasesRead [] otherwise tail) : ∀ {cases : List (Node × Node)},
    (∀ case ∈ cases, Role.expr.Reads style case.1) →
    (∀ case ∈ cases, Role.body.Reads style case.2) →
    CasesRead cases otherwise (caseWords style cases ++ tail)
  | [], _, _ => htail
  | (pattern, body) :: cases, hpatterns, hbodies => by
    have hfurther := casesRead_words htail
      (fun case hcase => hpatterns case (List.mem_cons_of_mem _ hcase))
      (fun case hcase => hbodies case (List.mem_cons_of_mem _ hcase))
    have hpattern := (hpatterns _ List.mem_cons_self).slot .whole
    have hcase := CasesRead.case hpattern (hbodies _ List.mem_cons_self) hfurther
    simpa [caseWords] using hcase

/-- **All trees of the language are read back.**  By induction on how they are formed: each
construct is read from its words, since its parts are read from theirs. -/
theorem WellFormed.reads {role : Role} (h : WellFormed role node) : role.Reads style node := by
  induction h with
  | number _ => exact ⟨rfl, rfl, .number⟩
  | text => exact ⟨rfl, rfl, .text⟩
  | boolean => exact ⟨rfl, rfl, .boolean⟩
  | null => exact ⟨rfl, rfl, .null⟩
  | @list items span _ ih =>
    refine ⟨rfl, rfl, ?_⟩
    have hread : BpScript.Reads (.mk (.list items) span) .atom _ :=
      .list fun item hitem => (ih item hitem).slot .whole
    rwa [← wordsOf_eq_map] at hread
  | @object entries span _ ih =>
    refine ⟨rfl, rfl, ?_⟩
    have hread : BpScript.Reads (.mk (.object entries) span) .atom _ :=
      .object (fun value => style.enclose .whole value (value.words style))
        fun entry hentry => (ih entry hentry).slot .whole
    rwa [← entryWords_eq_map] at hread
  | access => exact ⟨rfl, rfl, .access⟩
  | member _ ih => exact ⟨rfl, rfl, .member (ih.slot .suffix)⟩
  | @declaration ident value isPublic span _ ih =>
    refine ⟨rfl, rfl, ?_⟩
    cases isPublic
    · exact .declaration (ih.slot .whole)
    · exact .publicDeclaration (ih.slot .whole)
  | assign _ ih => exact ⟨rfl, rfl, .assign (ih.slot .whole)⟩
  | memberAssign hpath _ ih => exact ⟨rfl, rfl, .memberAssign hpath (ih.slot .whole)⟩
  | @binary lhs rhs op span _ _ ihl ihr =>
    refine ⟨rfl, rfl, ?_⟩
    cases op
    case power => exact .power (ihl.slot .suffix) (ihr.slot .sign)
    all_goals exact .chain rfl (ihl.slot _) (ihr.slot _)
  | @unary op operand span _ ih =>
    refine ⟨rfl, rfl, ?_⟩
    cases op
    · exact .signed rfl (ih.slot .sign)
    · exact .signed rfl (ih.slot .sign)
    · exact .negation (ih.slot .negation)
  | @ifElse arms otherwise span hne _ _ hblocks _ hblock ihconditions ihbodies ihotherwise =>
    refine ⟨rfl, rfl, ?_⟩
    have hbodies : ∀ arm ∈ arms, BodyReads arm.2 (arm.2.words style) :=
      fun arm harm => (ihbodies arm harm).ofBody (hblocks arm harm)
    obtain ⟨last, hlast⟩ := Option.isSome_iff_exists.1 (List.getLast?_isSome.2 hne)
    cases otherwise with
    | none =>
      have harms := armsRead_words hlast ihconditions hbodies fun hcondition hbody =>
        ArmsRead.last hcondition hbody
      rw [Node.words, Form.words, hlast]
      exact .conditional harms
    | some other =>
      have hother := (ihotherwise other rfl).ofBody (hblock other rfl)
      have harms := armsRead_words hlast ihconditions hbodies fun hcondition hbody =>
        ArmsRead.otherwise hcondition hbody hother
      rw [Node.words, Form.words, List.append_assoc]
      exact .conditional harms
  | @switch subject cases otherwise span _ _ _ _ ihsubject ihpatterns ihbodies ihotherwise =>
    refine ⟨rfl, rfl, ?_⟩
    cases otherwise with
    | none =>
      have hcases := casesRead_words .stop ihpatterns ihbodies
      rw [Node.words, Form.words, List.append_assoc]
      exact .switch (ihsubject.slot .whole) hcases
    | some other =>
      have hcases := casesRead_words (.otherwise (ihotherwise other rfl)) ihpatterns ihbodies
      rw [Node.words, Form.words, List.append_assoc, List.append_assoc]
      exact .switch (ihsubject.slot .whole) hcases
  | @forCount ident first last step body span _ _ _ _ hblock ihfirst ihlast ihstep ihbody =>
    refine ⟨rfl, rfl, ?_⟩
    cases step with
    | none =>
      rw [Node.words, Form.words, List.append_assoc]
      exact .forCount (ihfirst.slot .whole) (ihlast.slot .whole) .none (ihbody.ofBody hblock)
    | some step =>
      rw [Node.words, Form.words, List.append_assoc, List.append_assoc]
      exact .forCount (ihfirst.slot .whole) (ihlast.slot .whole)
        (.some ((ihstep step rfl).slot .whole)) (ihbody.ofBody hblock)
  | forList _ _ hblock ihlist ihbody =>
    exact ⟨rfl, rfl, .forList (ihlist.slot .whole) (ihbody.ofBody hblock)⟩
  | forObject _ _ hblock ihobject ihbody =>
    exact ⟨rfl, rfl, .forObject (ihobject.slot .whole) (ihbody.ofBody hblock)⟩
  | whileLoop _ _ hblock ihcondition ihbody =>
    exact ⟨rfl, rfl, .whileLoop (ihcondition.slot .whole) (ihbody.ofBody hblock)⟩
  | @arrow name params body isPublic span horder _ ih =>
    refine ⟨rfl, rfl, ?_⟩
    have hbody := FunctionBodyReads.arrow (ih.slot .whole)
    cases isPublic
    · exact .function horder hbody
    · exact .publicFunction horder hbody
  | @function name params body isPublic span horder _ hblock ih =>
    refine ⟨rfl, rfl, ?_⟩
    have hbody := FunctionBodyReads.block (ih.ofBlock hblock)
    cases isPublic
    · exact .function horder hbody
    · exact .publicFunction horder hbody
  | @call callee args span _ _ ihcallee ihargs =>
    refine ⟨rfl, rfl, ?_⟩
    have hread : BpScript.Reads (.mk (.call callee args) span) .suffix _ :=
      .call (ihcallee.slot .suffix) fun arg harg => (ihargs arg harg).slot .whole
    rw [Node.words, Form.words, List.append_assoc, wordsOf_eq_map]
    exact hread
  | importAs _ ih => exact ⟨rfl, rfl, .importAs (ih.slot .whole)⟩
  | @expr node _ ih =>
    refine ⟨ih.2.1, .of_reads (ih.slot .loose) fun htrailing => ?_,
      fun _ => .of_reads (ih.slot .whole)⟩
    -- no newline follows the last statement, so there are parentheses around it
    have hwraps : style.wraps .loose node = true := by
      rcases style.closes with hclosed | hclosed
      · rw [hclosed] at htrailing
        cases htrailing
      · exact hclosed node
    rw [Style.enclose_of_wraps ih.1 hwraps]
    exact ih.2.2.wrapped
  | @bareReturn span =>
    refine ⟨rfl, ⟨fun hsaid => ?_, fun hbound hsaid hfollow => ?_⟩,
      fun hreturn => absurd rfl hreturn⟩
    · rw [show _ = TokenKind.keyword .return_ from hsaid.1]
      decide
    · refine bareReturn_gives hbound hsaid ?_
      rcases hfollow with hkind | ⟨-, hkind⟩
      · rw [hkind]
        rfl
      · simp [TokenKind.endsStatement, hkind]
  | @returnValue value span _ ih =>
    refine ⟨rfl, ⟨fun hsaid => ?_, fun hbound hsaid hfollow => ?_⟩, fun _ =>
      ⟨fun hsaid => ?_, fun hbound hsaid hbinding => ?_⟩⟩
    · rw [show _ = TokenKind.keyword .return_ from hsaid.1]
      decide
    · refine returnValue_gives (ih.slot .whole) hbound hsaid ?_
      rcases hfollow with hkind | ⟨-, hkind⟩
      · rw [hkind]
        decide
      · exact TokenKind.binding_le_of_closesList hkind
    · rw [show _ = TokenKind.keyword .return_ from hsaid.1]
      decide
    · exact returnValue_gives (ih.slot .whole) hbound hsaid hbinding
  | breakLoop => exact Role.Reads.ofSignal (.inl ⟨rfl, rfl⟩)
  | continueLoop => exact Role.Reads.ofSignal (.inr ⟨rfl, rfl⟩)
  | @inline node _ hreturn ih =>
    show BodyReads (.mk node node.isBlock) (style.layOut node (node.words style))
    rw [Style.layOut, ih.1, if_neg Bool.false_ne_true]
    exact .inline (ih.2.2 hreturn)
  | @block statements span _ ih =>
    have hlines : List.Forall₂ (LineReads style.trailing) statements
        (wordsOf style .loose statements) := by
      rw [wordsOf_eq_map, List.forall₂_map_right_iff, List.forall₂_same]
      exact fun node hnode => (ih node hnode).2.1
    exact BodyReads.block (BlockReads.of_lines hlines)

/-! ## Whole inputs -/

/-- There are tokens for the words of a tree, with `eof` behind them. -/
theorem WellFormed.exists_tokens {role : Role} (h : WellFormed role node) :
    ∃ tokens, List.Forall₂ Word.Fits (node.words style ++ [.eof]) tokens :=
  Sayable.exists_tokens (by simp [h.sayable])

/-- **Programs are read back.**  A program can be written down in any style, and whatever tokens say
its words are read as the program again. -/
theorem parse_words (style : Style) {program : Node} (h : IsProgram program) :
    (∃ tokens, List.Forall₂ Word.Fits (program.words style ++ [.eof]) tokens) ∧
    ∀ tokens, List.Forall₂ Word.Fits (program.words style ++ [.eof]) tokens →
      ∃ root, Node.parse tokens = .ok root ∧ root.erase = program.erase := by
  refine ⟨h.wellFormed.exists_tokens, fun tokens htokens => ?_⟩
  cases tokens with
  | nil => simp at htokens
  | cons first rest =>
    obtain ⟨c, hsaid, heof, -⟩ := Cursor.says_of_forall₂ (c := .start first rest) htokens
    have heof : c.current.kind = .eof := heof
    have hbody : Role.body.Reads style program := h.wellFormed.reads
    have hblock : (Rule.statements.parse true).Gives (.start first rest) c
        (·.erase = program.erase) :=
      Gives.bind_get ((hbody.ofBlock h.isBlock).gives (by omega) hsaid (by rw [heof]; rfl))
    have hprogram : (Rule.program true).Gives (.start first rest) c (·.erase = program.erase) := by
      refine hblock.bind fun root hroot => Gives.bind_peekKind ?_
      rw [if_pos heof]
      exact Gives.pure hroot
    obtain ⟨root, hrun, hroot⟩ := hprogram
    exact ⟨root, congrArg (Prod.fst <$> ·) hrun, hroot⟩

/-- `if a then`, a block that returns, and `elif b then c.d = "e"` on one line. -/
def mixedArms : Node :=
  let name (s : String) : Node := .mk (.access ⟨s, default⟩) default
  let returns : Node := .mk (.block [.mk (.returnValue none) default]) default
  let assigns : Node :=
    .mk (.memberAssign [⟨"c", default⟩, ⟨"d", default⟩] .set (.mk (.text "e") default)) default
  .mk (.block [.mk (.ifElse [(name "a", .mk returns true), (name "b", .mk assigns false)] none)
    default]) default

theorem isProgram_mixedArms : IsProgram mixedArms where
  isBlock := rfl
  wellFormed := by
    refine .block (List.forall_mem_singleton.2 (.expr ?_))
    refine .ifElse (List.cons_ne_nil _ _) ?_ ?_ ?_ ?_ ?_
    · exact List.forall_mem_cons.2 ⟨.access, List.forall_mem_singleton.2 .access⟩
    · exact List.forall_mem_cons.2 ⟨.block (List.forall_mem_singleton.2 .bareReturn),
        List.forall_mem_singleton.2 (.inline (.expr (.memberAssign (Nat.le_refl 2) .text)) nofun)⟩
    · exact List.forall_mem_cons.2 ⟨rfl, List.forall_mem_singleton.2 rfl⟩
    · exact nofun
    · exact nofun

/-- Since the last arm is on one line, no `end` is written. -/
theorem mixed_arms_read_back :
    ∃ root, Node.parse ([
      (.symbol .leftParen, ""), (.keyword .if_, ""),
      (.symbol .leftParen, ""), (.ident, "a"), (.symbol .rightParen, ""), (.keyword .then_, ""),
      (.newline, ""), (.keyword .return_, ""), (.keyword .elif_, ""),
      (.symbol .leftParen, ""), (.ident, "b"), (.symbol .rightParen, ""), (.keyword .then_, ""),
      (.symbol .leftParen, ""), (.ident, "c"), (.symbol .dot, ""), (.ident, "d"),
      (.symbol .equal, ""), (.symbol .leftParen, ""), (.string, "e"), (.symbol .rightParen, ""),
      (.symbol .rightParen, ""), (.symbol .rightParen, ""), (.eof, "")].map
        fun token => ⟨token.1, default, token.2⟩) = .ok root ∧
      root.erase = mixedArms.erase := by
  refine (parse_words .full isProgram_mixedArms).2 _ ?_
  repeat' first | exact rfl | constructor

/-- **Operators bind as tightly as they should.**  An expression that is written with no parentheses
but those that the grades of its operators require is read back, and nothing is left behind it. -/
theorem expr_parse_sparing {node : Node} (h : WellFormed .expr node) :
    (∃ tokens, List.Forall₂ Word.Fits (node.words .sparing ++ [.eof]) tokens) ∧
    ∀ first rest, List.Forall₂ Word.Fits (node.words .sparing ++ [.eof]) (first :: rest) →
      ∃ read c, Rule.expr.parse true (.start first rest) = .ok (read, c) ∧
        read.erase = node.erase ∧ c.current.kind = .eof ∧ c.upcoming = [] := by
  refine ⟨h.exists_tokens, fun first rest htokens => ?_⟩
  obtain ⟨c, hsaid, heof, hlast⟩ := Cursor.says_of_forall₂ (c := .start first rest) htokens
  have heof : c.current.kind = .eof := heof
  have hexpr : Role.expr.Reads .sparing node := h.reads
  have hreads : Reads node .loose (node.words .sparing) := hexpr.2.2.loosen (Nat.zero_le _)
  obtain ⟨read, hrun, hread⟩ : (Rule.expr.parse true).Gives (.start first rest) c
      (·.erase = node.erase) :=
    Gives.bind_get (hreads.gives_loose (by omega) hsaid (by rw [heof]; decide))
  exact ⟨read, c, hrun, hread, heof, hlast⟩

/-- The comparison of `not a` with `-(-b) ^ -c`.  Its left side and the base of the power need
parentheses, and none of the other operands do. -/
def signedPower : Node :=
  let name (s : String) : Node := .mk (.access ⟨s, default⟩) default
  let unary (op : UnaryOp) (operand : Node) : Node := .mk (.unary op operand) default
  let binary (lhs : Node) (op : BinaryOp) (rhs : Node) : Node := .mk (.binary lhs op rhs) default
  binary (unary .not (name "a")) .less
    (unary .minus (binary (unary .minus (name "b")) .power (unary .minus (name "c"))))

theorem signed_power_read_back :
    ∃ read c, Rule.expr.parse true (.start ⟨.symbol .leftParen, default, ""⟩ ([
      (.keyword .not_, ""), (.ident, "a"), (.symbol .rightParen, ""), (.symbol .less, ""),
      (.symbol .minus, ""), (.symbol .leftParen, ""), (.symbol .minus, ""), (.ident, "b"),
      (.symbol .rightParen, ""), (.symbol .caret, ""), (.symbol .minus, ""), (.ident, "c"),
      (.eof, "")].map fun token => ⟨token.1, default, token.2⟩)) = .ok (read, c) ∧
      read.erase = signedPower.erase ∧ c.current.kind = .eof ∧ c.upcoming = [] := by
  have hexpr : WellFormed .expr signedPower :=
    .binary (.unary .access) (.unary (.binary (.unary .access) (.unary .access)))
  refine (expr_parse_sparing hexpr).2 _ _ ?_
  repeat' first | exact rfl | constructor

end BpScript
