import BpScript.Proofs.FirstOffence
import BpScript.Proofs.Spans

/-!
# Reports point into the text

A text that cannot be read as a program is reported with a stretch of it.  The scanner reports the
characters that no token can be made of.  The parser reports a token that it has come to, or one
that it has read before; where a statement list has given up, the report of its last statement waits
in the cursor until it is needed.

* `Diagnostic.ReportsOn` — the report is about a stretch of the text.
* `Parse.Reports` — what is asked of a step; `Parse.Reports.bind` puts steps together.
* `Production.statement_reports`, … — one lemma for each production, under the assumption that the
  rules it nests report on the text.
* **`Node.ofSource_reportsOn`** — whatever is wrong with a text, the report is about it.
-/

namespace BpScript

/-- The diagnostic is about a stretch of the text of `source`, and has not left any call. -/
structure Diagnostic.ReportsOn (source : Source) (e : Diagnostic) : Prop where
  isIn : e.span.IsIn source
  trace : e.trace = #[]

/-! ## The scanner -/

/-- The characters that an offending reading takes are part of the text. -/
theorem tokenize_reportsOn {source : Source} {e : Diagnostic} (h : tokenize source = .error e) :
    e.ReportsOn source := by
  obtain ⟨tokens, t, c, cs, hreads, hrest, herror⟩ := (Scanner.start source).exists_reads h
  obtain ⟨tiles, -, htext, -, ht⟩ := hreads.strip (Scanner.standsBehind_start source)
  obtain ⟨fault, -, rfl⟩ := Scanner.outcome_eq_error herror
  have hskip := ht.skipFiller
  have hleft : source.text.toList = Tile.textOf tiles ++ t.filler ++
      ((Lexeme.read c cs).taken ++ (Lexeme.read c cs).rest) := by
    rw [Lexeme.read_split, ← hrest, List.append_assoc, t.filler_append]
    exact htext
  have hstop : t.skipFiller.place.after (Lexeme.read c cs).taken =
      .behind (Tile.textOf tiles ++ t.filler ++ (Lexeme.read c cs).taken) := by
    rw [hskip.place, Position.after_behind]
    rfl
  have hbehind := hleft.trans (List.append_assoc _ (Lexeme.read c cs).taken _).symm
  refine ⟨⟨hskip.source, ⟨_, _, hleft, hskip.place⟩, ⟨_, _, hbehind, hstop⟩, ?_⟩, rfl⟩
  · show t.skipFiller.place.index ≤ (t.skipFiller.place.after _).index
    rw [hstop, Position.index_behind_append, hskip.place]
    exact Nat.le_add_right _ _

/-! ## Steps of the parser -/

/-- The tokens from here on are tokens of `source`, and so is what a waiting report is about. -/
structure Cursor.ReadsFrom (source : Source) (c : Cursor) : Prop where
  isIn : ∀ token ∈ c.tokens, token.span.IsIn source
  deferred : ∀ index e, c.deferred = some (index, e) → e.ReportsOn source

theorem Cursor.ReadsFrom.advance {source : Source} {c : Cursor} (h : c.ReadsFrom source) :
    c.advance.ReadsFrom source := by
  rcases c with ⟨index, current, _ | ⟨next, rest⟩, lastStop, deferred⟩
  · exact h
  · exact ⟨fun token htoken => h.isIn token (List.mem_cons_of_mem _ htoken), h.deferred⟩

theorem Cursor.ReadsFrom.advanceBy {source : Source} : ∀ (n : Nat) {c : Cursor},
    c.ReadsFrom source → (c.advanceBy n).ReadsFrom source
  | 0, _, h => h
  | n + 1, _, h => advanceBy n h.advance

theorem Cursor.ReadsFrom.current {source : Source} {c : Cursor} (h : c.ReadsFrom source) :
    c.current.span.IsIn source :=
  h.isIn _ List.mem_cons_self

/-- What is reported, if anything, is about `source`. -/
def ParseFailure.ReportsOn (source : Source) : ParseFailure → Prop
  | .report e => e.ReportsOn source
  | .exhausted => True

/-- The step goes on among the tokens of `source`, with a value that satisfies `Q`, or it reports on
`source`. -/
def Parse.Reports {α : Type} (source : Source) (Q : α → Prop) (p : Parse α) : Prop :=
  ∀ c : Cursor, c.ReadsFrom source → match p c with
    | .ok read => Q read.1 ∧ read.2.ReadsFrom source
    | .error failure => failure.ReportsOn source

/-- The same, whatever the value is. -/
abbrev Parse.Sound {α : Type} (source : Source) (p : Parse α) : Prop :=
  p.Reports source fun _ => True

namespace Parse.Reports

variable {α β : Type} {source : Source} {Q : α → Prop} {R : β → Prop} {p q : Parse α}
  {k : α → Parse β}

theorem bind (h : p.Reports source Q) (hk : ∀ a, Q a → (k a).Reports source R) :
    (p >>= k).Reports source R := by
  intro c hc
  have hstep := h c hc
  rcases hp : p c with failure | ⟨a, c'⟩
  · rw [hp] at hstep
    rw [run_bind_error hp]
    exact hstep
  · rw [hp] at hstep
    rw [run_bind_ok hp]
    exact hk a hstep.1 c' hstep.2

theorem weaken (h : p.Reports source Q) : p.Sound source := by
  intro c hc
  have hstep := h c hc
  rcases hp : p c with failure | ⟨a, c'⟩
  · rw [hp] at hstep
    exact hstep
  · rw [hp] at hstep
    exact ⟨trivial, hstep.2⟩

theorem pure {a : α} (h : Q a) : Reports source Q (pure a) :=
  fun _ hc => ⟨h, hc⟩

theorem done {a : α} : Sound source (Pure.pure a) :=
  pure trivial

theorem map {f : α → β} (h : p.Sound source) : (f <$> p).Sound source := by
  rw [map_eq_pure_bind]
  exact h.bind fun _ _ => done

theorem discard (h : p.Reports source Q) : (Functor.discard p).Sound source := by
  rw [Functor.discard, LawfulFunctor.map_const]
  exact h.weaken.map

theorem exhausted : Reports source Q (exhausted : Parse α) :=
  fun _ _ => trivial

theorem fail {e : Diagnostic} (h : e.ReportsOn source) :
    Reports source Q (Parse.fail e : Parse α) :=
  fun _ _ => h

/-- A failure at the current token may be the report that waits there. -/
theorem failHere {fault : SyntaxFault} : Reports source Q (Parse.failHere fault : Parse α) := by
  intro c hc
  show (c.failure fault).ReportsOn source
  unfold Cursor.failure
  split
  · next index e hdeferred =>
    split
    · exact hc.deferred index e hdeferred
    · exact ⟨hc.current, rfl⟩
  · exact ⟨hc.current, rfl⟩

theorem failExpecting {kinds : List TokenKind} :
    Reports source Q (Parse.failExpecting kinds : Parse α) :=
  failHere

theorem get : Reports source (Cursor.ReadsFrom source) (get : Parse Cursor) :=
  fun _ hc => ⟨hc, hc⟩

theorem set {c : Cursor} (h : c.ReadsFrom source) : Sound source (set c : Parse PUnit) :=
  fun _ _ => ⟨trivial, h⟩

theorem peek : Reports source (fun token => token.span.IsIn source) peek :=
  fun _ hc => ⟨hc.current, hc⟩

theorem peekKind : Sound source peekKind :=
  fun _ hc => ⟨trivial, hc⟩

theorem advance : Reports source (fun token => token.span.IsIn source) advance :=
  fun _ hc => ⟨hc.current, hc.advance⟩

theorem spanFrom {first : Span} : Sound source (Parse.spanFrom first) :=
  fun _ hc => ⟨trivial, hc⟩

theorem skipNewlines : Sound source skipNewlines :=
  fun c hc => ⟨trivial, hc.advanceBy c.newlines⟩

theorem ite {b : Prop} [Decidable b] (hp : p.Reports source Q) (hq : q.Reports source Q) :
    (if b then p else q).Reports source Q := by
  split
  · exact hp
  · exact hq

theorem accept {kind : TokenKind} : Sound source (Parse.accept kind) :=
  peekKind.bind fun _ _ => ite (advance.discard.bind fun _ _ => done) done

theorem expectAmong {kind : TokenKind} {kinds : List TokenKind} :
    Reports source (fun token => token.span.IsIn source) (Parse.expectAmong kind kinds) :=
  peekKind.bind fun _ _ => ite advance failExpecting

/-- The last step of a production. -/
theorem spanned {first : Span} {f : Span → α} :
    Sound source (do return f (← Parse.spanFrom first)) :=
  spanFrom.bind fun _ _ => done

/-- A step behind a token that has to be there. -/
theorem expecting {kind : TokenKind} {kinds : List TokenKind} (h : p.Sound source) :
    (do Functor.discard (Parse.expectAmong kind kinds); p).Sound source :=
  expectAmong.discard.bind fun _ _ => h

end Parse.Reports

/-! ## Productions -/

namespace Production

open Parse Parse.Reports

variable {source : Source} {bound : Nat} {sub : Rule → Parse Node}

theorem ident_reports : ident.Reports source fun name => name.span.IsIn source :=
  expectAmong.bind fun _ h => pure h

theorem segments_reports : ∀ bound, (segments bound).Sound source
  | 0 => exhausted
  | bound + 1 => by
    refine get.bind fun cursor _ => ?_
    split
    · refine ite ?_ done
      exact advance.discard.bind fun _ _ => advance.discard.bind fun _ _ =>
        (segments_reports bound).bind fun _ _ => done
    · exact done

theorem itemsUntil_reports {α : Type} {item : Parse α} (close : Symbol) (h : item.Sound source) :
    ∀ bound, (itemsUntil close item bound).Sound source
  | 0 => exhausted
  | bound + 1 => by
    refine h.bind fun first _ => skipNewlines.discard.bind fun _ _ => accept.bind fun _ _ =>
      ite ?_ ?_
    · exact skipNewlines.discard.bind fun _ _ => (itemsUntil_reports close h bound).bind
        fun _ _ => done
    · exact expecting done

theorem sequence_reports {α : Type} {item : Parse α} (close : Symbol) (h : item.Sound source) :
    (sequence bound close item).Sound source :=
  skipNewlines.discard.bind fun _ _ => accept.bind fun _ _ =>
    ite done (itemsUntil_reports close h bound)

theorem chainFrom_reports {operand : Parse Node} (level : Level) (h : operand.Sound source) :
    ∀ bound lhs, (chainFrom level operand bound lhs).Sound source
  | 0, _ => exhausted
  | bound + 1, lhs => by
    refine peekKind.bind fun kind _ => ?_
    split
    · exact done
    · exact advance.discard.bind fun _ _ => h.bind fun rhs _ => chainFrom_reports level h bound _

theorem chain_reports {operand : Parse Node} (level : Level) (h : operand.Sound source) :
    (chain bound level operand).Sound source :=
  h.bind fun lhs _ => chainFrom_reports level h bound lhs

/-- The report of a statement waits where its list gives up. -/
theorem furtherStatements_reports {statement : Parse Node} (rewinds : Bool)
    (h : statement.Sound source) : ∀ bound, (furtherStatements rewinds statement bound).Sound source
  | 0 => exhausted
  | bound + 1 => by
    refine skipNewlines.bind fun _ _ => ite done (peekKind.bind fun _ _ => ite done ?_)
    refine get.bind fun checkpoint hcheckpoint => ?_
    have hstatement := h checkpoint hcheckpoint
    split
    · next first cursor hrun =>
      rw [hrun] at hstatement
      exact (set hstatement.2).bind fun _ _ =>
        (furtherStatements_reports rewinds h bound).bind fun _ _ => done
    · next e hrun =>
      rw [hrun] at hstatement
      have hwaits : Cursor.ReadsFrom source
          { checkpoint with deferred := some (checkpoint.index, e) } := by
        refine ⟨hcheckpoint.isIn, fun index e' hdeferred => ?_⟩
        cases hdeferred
        exact hstatement
      exact ite ((set hwaits).bind fun _ _ => done) (fail hstatement)
    · exact exhausted

theorem literal_reports {form : Form} : (literal form).Sound source :=
  advance.bind fun _ _ => done

theorem number_reports : number.Sound source := by
  refine advance.bind fun token htoken => ?_
  split
  · exact done
  · exact fail ⟨htoken, rfl⟩

section Constructs

variable (hsub : ∀ rule, (sub rule).Sound source)

include hsub

theorem group_reports : (group sub).Sound source :=
  advance.discard.bind fun _ _ => (hsub .expr).bind fun _ _ => expecting done

theorem list_reports : (list bound sub).Sound source :=
  advance.bind fun _ _ => (sequence_reports _ (hsub .expr)).bind fun _ _ => spanned

theorem entry_reports : (entry sub).Sound source := by
  have hentry : (do
      let key ← Parse.advance
      Functor.discard <| expect (.symbol .colon)
      return (identOf key, ← sub .expr)).Sound source :=
    advance.bind fun _ _ => expecting ((hsub .expr).bind fun _ _ => done)
  refine peekKind.bind fun _ _ => ?_
  split
  · exact hentry
  · exact hentry
  · exact failExpecting

theorem object_reports : (object bound sub).Sound source :=
  advance.bind fun _ _ => (sequence_reports _ (entry_reports hsub)).bind fun _ _ => spanned

theorem declaration_reports (isPublic : Bool) : (declaration sub isPublic).Sound source :=
  advance.bind fun _ _ => ident_reports.bind fun _ _ => expecting <|
    (hsub .expr).bind fun _ _ => spanned

theorem nameOrAssignment_reports : (nameOrAssignment bound sub).Sound source := by
  refine ident_reports.bind fun name _ => peekKind.bind fun _ _ => ?_
  split
  · exact advance.discard.bind fun _ _ => (hsub .expr).bind fun _ _ => done
  · refine get.bind fun checkpoint hcheckpoint => ?_
    refine (segments_reports bound).bind fun path _ => peekKind.bind fun _ _ => ?_
    split
    · exact advance.discard.bind fun _ _ => (hsub .expr).bind fun _ _ => done
    · exact (set hcheckpoint).bind fun _ _ => done

theorem blockUntilEnd_reports : (blockUntilEnd sub).Sound source :=
  (hsub .statements).bind fun _ _ => expecting done

theorem body_reports : (body sub).Sound source :=
  accept.bind fun _ _ => ite ((blockUntilEnd_reports hsub).bind fun _ _ => done)
    ((hsub .statement).bind fun _ _ => done)

theorem elseBody_reports : (elseBody sub).Sound source :=
  advance.discard.bind fun _ _ => body_reports hsub

theorem arms_reports : ∀ bound, (arms sub bound).Sound source
  | 0 => exhausted
  | bound + 1 => by
    have hfurther : ∀ arm : Node × Body, (do
        let further ← arms sub bound
        return (arm :: further.1, further.2)).Sound source :=
      fun arm => (arms_reports bound).bind fun _ _ => done
    have helse : ∀ arm : Node × Body, (do
        return ([arm], some (← elseBody sub))).Sound source :=
      fun arm => (elseBody_reports hsub).bind fun _ _ => done
    refine (hsub .expr).bind fun condition _ => expecting (accept.bind fun _ _ => ite ?_ ?_)
    · refine (hsub .statements).bind fun block _ => accept.bind fun _ _ => ite done ?_
      refine accept.bind fun _ _ => ite (hfurther _) (peekKind.bind fun _ _ => ?_)
      exact ite (helse _) failExpecting
    · refine (hsub .statement).bind fun statement _ => accept.bind fun _ _ => ite (hfurther _) ?_
      exact peekKind.bind fun _ _ => ite (helse _) done

theorem conditional_reports : (conditional bound sub).Sound source :=
  advance.bind fun _ _ => (arms_reports hsub bound).bind fun _ _ => spanned

theorem loopBody_reports : (loopBody sub).Sound source :=
  expecting (body_reports hsub)

theorem forObject_reports {first : Span} {key : Ident} : (forObject sub first key).Sound source :=
  ident_reports.bind fun _ _ => expecting <| (hsub .expr).bind fun _ _ =>
    (loopBody_reports hsub).bind fun _ _ => spanned

theorem forList_reports {first : Span} {name : Ident} : (forList sub first name).Sound source :=
  (hsub .expr).bind fun _ _ => (loopBody_reports hsub).bind fun _ _ => spanned

theorem forCount_reports {first : Span} {name : Ident} :
    (forCount sub first name).Sound source := by
  refine expecting <| (hsub .expr).bind fun start _ => expecting <| (hsub .expr).bind
    fun stop _ => ?_
  refine accept.bind fun _ _ => ?_
  have hbody : ∀ step : Option Node, (do
      let body ← loopBody sub
      return Node.mk (.forCount name start stop step body) (← Parse.spanFrom first)).Sound source :=
    fun step => (loopBody_reports hsub).bind fun _ _ => spanned
  exact ite ((hsub .expr).map.bind fun _ _ => hbody _) (done.bind fun _ _ => hbody _)

theorem forLoop_reports : (forLoop sub).Sound source :=
  advance.bind fun _ _ => ident_reports.bind fun _ _ => accept.bind fun _ _ =>
    ite (forObject_reports hsub) <| accept.bind fun _ _ =>
      ite (forList_reports hsub) (forCount_reports hsub)

theorem whileLoop_reports : (whileLoop sub).Sound source :=
  advance.bind fun _ _ => (hsub .expr).bind fun _ _ => (loopBody_reports hsub).bind
    fun _ _ => spanned

omit hsub in
theorem params_reports : ∀ bound seenOptional, (params bound seenOptional).Sound source
  | 0, _ => exhausted
  | bound + 1, seenOptional => by
    refine ident_reports.bind fun name hname => accept.bind fun optional _ => ?_
    refine ite (fail ⟨hname, rfl⟩) (accept.bind fun _ _ => ite ?_ done)
    exact (params_reports bound _).bind fun _ _ => done

omit hsub in
theorem paramList_reports : (paramList bound).Sound source :=
  peekKind.bind fun _ _ =>
    ite ((params_reports bound false).bind fun _ _ => expecting done) (expecting done)

theorem functionBody_reports : (functionBody sub).Sound source :=
  accept.bind fun _ _ => ite ((hsub .expr).bind fun _ _ => done) <| accept.bind fun _ _ =>
    ite ((blockUntilEnd_reports hsub).bind fun _ _ => done) failExpecting

theorem function_reports (isPublic : Bool) : (function bound sub isPublic).Sound source := by
  refine advance.bind fun first _ => peekKind.bind fun _ _ => ?_
  have hrest : ∀ name : Option Ident, (do
      Functor.discard <| Parse.expectAmong (.symbol .leftParen) <|
        if name.isSome then [.symbol .leftParen] else [.ident, .symbol .leftParen]
      let names ← paramList bound
      let written ← functionBody sub
      return Node.mk (.function (.mk name names written.1 written.2 isPublic))
        (← Parse.spanFrom first.span)).Sound source :=
    fun name => expecting <| paramList_reports.bind fun _ _ =>
      (functionBody_reports hsub).bind fun _ _ => spanned
  exact ite (ident_reports.weaken.map.bind fun _ _ => hrest _) (done.bind fun _ _ => hrest _)

theorem visible_reports : (visible bound sub).Sound source := by
  refine advance.bind fun modifier _ => peekKind.bind fun _ _ => ?_
  split
  · exact (declaration_reports hsub _).bind fun _ _ => done
  · exact (function_reports hsub _).bind fun _ _ => done
  · exact (failExpecting (Q := fun _ => True)).bind fun _ _ => done

theorem caseBody_reports : (caseBody sub).Sound source :=
  expecting <| peekKind.bind fun _ _ => ite (hsub .statements) (hsub .statement)

theorem cases_reports : ∀ bound otherwise, (Production.cases sub bound otherwise).Sound source
  | 0, _ => exhausted
  | bound + 1, otherwise => by
    refine peekKind.bind fun _ _ => ?_
    split
    · exact advance.discard.bind fun _ _ => (hsub .expr).bind fun _ _ =>
        (caseBody_reports hsub).bind fun _ _ => skipNewlines.discard.bind fun _ _ =>
          (cases_reports bound otherwise).bind fun _ _ => done
    · refine ite (peek.bind fun token htoken => fail ⟨htoken, rfl⟩) ?_
      exact advance.discard.bind fun _ _ => (caseBody_reports hsub).bind fun _ _ =>
        skipNewlines.discard.bind fun _ _ => cases_reports bound _
    · exact advance.discard.bind fun _ _ => done
    · exact failExpecting

theorem switch_reports : (switch bound sub).Sound source :=
  advance.bind fun _ _ => (hsub .expr).bind fun _ _ => skipNewlines.bind fun _ _ =>
    ite failExpecting ((cases_reports hsub bound none).bind fun _ _ => spanned)

theorem importAs_reports : (importAs sub).Sound source :=
  advance.bind fun _ _ => (hsub .expr).bind fun _ _ => expecting <|
    ident_reports.bind fun _ _ => spanned

theorem atom_reports : (atom bound sub).Sound source := by
  refine peekKind.bind fun _ _ => ?_
  split
  case h_1 | h_2 => exact number_reports
  case h_3 => exact peek.bind fun _ _ => literal_reports
  case h_4 | h_5 | h_6 => exact literal_reports
  case h_7 => exact nameOrAssignment_reports hsub
  case h_8 => exact group_reports hsub
  case h_9 => exact list_reports hsub
  case h_10 => exact object_reports hsub
  case h_11 => exact conditional_reports hsub
  case h_12 => exact forLoop_reports hsub
  case h_13 => exact whileLoop_reports hsub
  case h_14 => exact function_reports hsub false
  case h_15 => exact switch_reports hsub
  case h_16 => exact importAs_reports hsub
  case h_17 | h_18 => exact visible_reports hsub
  case h_19 => exact failExpecting

theorem suffixes_reports : ∀ rest target, (suffixes bound sub rest target).Sound source
  | 0, _ => exhausted
  | rest + 1, target => by
    refine accept.bind fun _ _ => ite ?_ (accept.bind fun _ _ => ite ?_ done)
    · exact ident_reports.bind fun _ _ => suffixes_reports rest _
    · exact (sequence_reports _ (hsub .expr)).bind fun _ _ => spanFrom.bind fun _ _ =>
        suffixes_reports rest _

theorem power_reports : (power bound sub).Sound source := by
  have hbase : (suffixed bound sub).Sound source :=
    (atom_reports hsub).bind fun target _ => suffixes_reports hsub bound target
  exact hbase.bind fun _ _ => accept.bind fun _ _ =>
    ite ((hsub .signed).bind fun _ _ => done) done

theorem signed_reports : (signed bound sub).Sound source := by
  have hsign : ∀ (op : UnaryOp) (first : Token), (do
      Functor.discard Parse.advance
      let operand ← sub .signed
      return Node.mk (.unary op operand) (← Parse.spanFrom first.span)).Sound source :=
    fun op first => advance.discard.bind fun _ _ => (hsub .signed).bind fun _ _ => spanned
  refine peek.bind fun first _ => ?_
  split
  · exact hsign _ first
  · exact hsign _ first
  · exact power_reports hsub

theorem negation_reports : (negation bound sub).Sound source := by
  refine peek.bind fun first _ => ite ?_ ?_
  · exact advance.discard.bind fun _ _ => (hsub .negation).bind fun _ _ => spanned
  · exact chain_reports _ (chain_reports _ (chain_reports _ (signed_reports hsub)))

theorem expr_reports : (expr bound sub).Sound source :=
  peekKind.bind fun _ _ => ite (declaration_reports hsub false)
    (chain_reports _ (chain_reports _ (negation_reports hsub)))

theorem statement_reports : (statement bound sub).Sound source := by
  refine peek.bind fun first _ => ?_
  split
  · refine advance.discard.bind fun _ _ => peekKind.bind fun _ _ => ite spanned ?_
    exact (expr_reports hsub).bind fun _ _ => spanned
  · exact literal_reports
  · exact literal_reports
  · exact expr_reports hsub

theorem statements_reports (rewinds : Bool) : (statements bound sub rewinds).Sound source := by
  have hstatement : (statement bound sub).Sound source := statement_reports hsub
  have hfurther : ∀ (first : Token) (leading : List Node), (do
      let further ← furtherStatements rewinds (statement bound sub) bound
      return Node.mk (.block (leading ++ further)) (← Parse.spanFrom first.span)).Sound source :=
    fun first leading => (furtherStatements_reports rewinds hstatement bound).bind
      fun _ _ => spanned
  refine peek.bind fun first _ => skipNewlines.discard.bind fun _ _ => peekKind.bind fun _ _ => ?_
  exact ite (done.bind fun _ _ => hfurther first _)
    (hstatement.map.bind fun _ _ => hfurther first _)

end Constructs

end Production

/-! ## Programs -/

/-- All rules, by induction on the bound. -/
theorem Rule.parseWithin_reports {source : Source} (rewinds : Bool) :
    ∀ bound rule, (Rule.parseWithin rewinds bound rule).Sound source
  | 0, _ => Parse.Reports.exhausted
  | bound + 1, rule => by
    have hsub : ∀ rule, (Rule.parseWithin rewinds bound rule).Sound source :=
      parseWithin_reports rewinds bound
    cases rule with
    | expr => exact Production.expr_reports hsub
    | statement => exact Production.statement_reports hsub
    | statements => exact Production.statements_reports hsub rewinds
    | negation => exact Production.negation_reports hsub
    | signed => exact Production.signed_reports hsub

theorem Rule.program_reports {source : Source} (rewinds : Bool) :
    (Rule.program rewinds).Sound source := by
  have hroot : (Rule.statements.parse rewinds).Sound source :=
    Parse.Reports.get.bind fun _ _ => parseWithin_reports rewinds _ _
  exact hroot.bind fun _ _ => Parse.Reports.peekKind.bind fun _ _ =>
    Parse.Reports.ite Parse.Reports.done Parse.Reports.failHere

/-- Where the reading of a program starts. -/
theorem Cursor.readsFrom_start {source : Source} {first : Token} {rest : List Token}
    (h : tokenize source = .ok (first :: rest)) : (Cursor.start first rest).ReadsFrom source :=
  ⟨(Tidy.start h).isIn, nofun⟩

theorem Node.parse_reportsOn {source : Source} {tokens : List Token} {e : Diagnostic}
    (htokens : tokenize source = .ok tokens) (h : Node.parse tokens = .error (.report e)) :
    e.ReportsOn source := by
  obtain ⟨front, last, hends, -⟩ := Scanner.ends_of_steps _ htokens
  cases tokens with
  | nil => exact absurd hends.symm (List.append_ne_nil_of_right_ne_nil _ (by simp))
  | cons first rest =>
    have hrun : Node.parse (first :: rest) =
        (Rule.program true (.start first rest)).map (·.1) := rfl
    have hprogram := Rule.program_reports true (.start first rest) (Cursor.readsFrom_start htokens)
    rw [hrun] at h
    cases hread : Rule.program true (.start first rest) with
    | ok read =>
      rw [hread] at h
      cases h
    | error failure =>
      rw [hread] at h hprogram
      cases h
      exact hprogram

/-- **Whatever is wrong with a text, the report is about it.** -/
theorem Node.ofSource_reportsOn {source : Source} {e : Diagnostic}
    (h : Node.ofSource source = .error (.report e)) : e.ReportsOn source := by
  cases htokens : tokenize source with
  | error e' =>
    rw [Node.ofSource, htokens] at h
    cases h
    exact tokenize_reportsOn htokens
  | ok tokens =>
    rw [Node.ofSource, htokens] at h
    exact parse_reportsOn htokens h

end BpScript
