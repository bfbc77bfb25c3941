import BpScript.Proofs.ReadBack.Operand

/-!
# Reading atoms back

One lemma for each construct without a body: it is read from its words, if its parts are read from
theirs.

* `Reads.of_token` — a construct that its first token tells.
* `Reads.access` — variables, which are told from assignments by what follows the dotted names.
* `Reads.group`, `Reads.list`, `Reads.object` — brackets.
* `Reads.declaration`, `Reads.assign`, `Reads.memberAssign` — assignments.
-/

namespace BpScript

open Parse Production

variable {node : Node} {words words' : List Word} {rewinds : Bool} {bound : Nat} {c c' : Cursor}
  {span : Span}

/-- A name that was written down is read with its lexeme. -/
theorem erase_identOf {ident : Ident} {token : Token} (h : token.lexeme = ident.name) :
    (identOf token).erase = ident.erase := by
  rw [identOf, Ident.erase, Ident.erase, h]

namespace Reads

/-! ## Literals, names and brackets -/

theorem number {value : Float} : Reads (.mk (.number value) span) .atom [.number value] := by
  refine of_atom ?_ ?_
  · rintro c c' ⟨⟨hkind | hkind, -⟩, -⟩
    · rw [hkind]
      rfl
    · rw [hkind]
      rfl
  · rintro rewinds bound c c' - ⟨⟨hkind, hvalue⟩, -, rfl⟩ - -
    have hnumber : Production.number.Gives c c.advance
        (·.erase = (Node.mk (.number value) span).erase) := by
      refine Gives.bind_advance ?_
      rw [hvalue]
      exact Gives.pure (by simp [Node.erase, Form.erase])
    refine Gives.bind_peekKind ?_
    rcases hkind with hkind | hkind
    · rw [hkind]
      exact hnumber
    · rw [hkind]
      exact hnumber

theorem text {value : String} : Reads (.mk (.text value) span) .atom [.text value] := by
  refine of_atom ?_ ?_
  · rintro c c' ⟨⟨hkind, -⟩, -⟩
    rw [hkind]
    rfl
  · rintro rewinds bound c c' - ⟨⟨hkind, hvalue⟩, -, rfl⟩ - -
    refine Gives.bind_peekKind ?_
    rw [hkind]
    refine Gives.bind_peek (Gives.bind_advance (Gives.pure ?_))
    simp [Node.erase, Form.erase, hvalue]

/-- A construct that a keyword or a bracket tells. -/
theorem of_token {kind : TokenKind} {word : Word} {grade : Grade}
    (hfits : ∀ {token : Token}, word.Fits token → token.kind = kind)
    (hopens : kind.opens .atom = true)
    (h : ∀ {rewinds : Bool} {bound : Nat} {c c' : Cursor}, c.current.kind = kind →
      c.advance.upcoming.length < bound → c.advance.Says words c' →
      c'.current.kind.binding ≤ grade →
      (atom (bound + 1) (Rule.parseWithin rewinds bound)).Gives c c' (·.erase = node.erase)) :
    Reads node grade (word :: words) := by
  refine of_atom ?_ ?_
  · rintro c c' ⟨hword, -⟩
    rw [hfits hword, hopens]
  · rintro rewinds bound c c' hbound ⟨hword, hne, hsaid⟩ hbinding -
    have hlt := Cursor.advance_lt hne
    exact h (hfits hword) (by omega) hsaid hbinding

theorem boolean {value : Bool} :
    Reads (.mk (.boolean value) span) .atom [.keyword (if value then .true_ else .false_)] := by
  refine of_token id (by cases value <;> rfl) ?_
  rintro rewinds bound c c' hkind - rfl -
  refine Gives.bind_peekKind ?_
  rw [hkind]
  cases value
  · exact Gives.bind_advance (Gives.pure (by simp [Node.erase]))
  · exact Gives.bind_advance (Gives.pure (by simp [Node.erase]))

theorem null : Reads (.mk .null span) .atom [.keyword .null_] := by
  refine of_token id rfl ?_
  rintro rewinds bound c c' hkind - rfl -
  refine Gives.bind_peekKind ?_
  rw [hkind]
  exact Gives.bind_advance (Gives.pure (by simp [Node.erase]))

/-- A variable.  The dotted names behind it are looked at, and left to the suffixes. -/
theorem access {ident : Ident} : Reads (.mk (.access ident) span) .atom [.ident ident.name] := by
  refine of_atom ?_ ?_
  · rintro c c' ⟨⟨hkind, -⟩, -⟩
    rw [hkind]
    rfl
  · rintro rewinds bound c c' hbound ⟨⟨hkind, hlexeme⟩, hne, rfl⟩ - ⟨hassign, hfree⟩
    have hlt := Cursor.advance_lt hne
    obtain ⟨c₁, hpath, hassign₁⟩ := hfree (bound + 1) (by omega)
    refine Gives.bind_peekKind ?_
    rw [hkind]
    refine Gives.bind_ident hkind (Gives.bind_peekKind ?_)
    rw [hassign]
    refine Gives.bind_get (hpath.bind fun path _ => Gives.bind_peekKind ?_)
    rw [hassign₁]
    split
    · next h => cases h
    · refine Gives.bind_set (Gives.pure ?_)
      simp [Node.erase, Form.erase, erase_identOf hlexeme]

/-- Parentheses leave no trace. -/
theorem group (h : Reads node .loose words) :
    Reads node .atom (.symbol .leftParen :: words ++ [.symbol .rightParen]) := by
  refine of_token id rfl ?_
  intro rewinds bound c c' hkind hbound hsaid _
  obtain ⟨c₁, hinner, hclose, hne, rfl⟩ := Cursor.says_append.1 hsaid
  have hinner' : (Rule.expr.parseWithin rewinds bound).Gives c.advance c₁ (·.erase = node.erase) :=
    h.gives_loose hbound hinner (by rw [show c₁.current.kind = _ from hclose]; decide)
  refine Gives.bind_peekKind ?_
  rw [hkind]
  refine Gives.bind_discard_advance (hinner'.bind fun inner hread => ?_)
  exact Gives.bind_expect hclose (Gives.pure hread)

theorem list {items : List Node} {write : Node → List Word}
    (h : ∀ item ∈ items, Reads item .whole (write item)) :
    Reads (.mk (.list items) span) .atom
      (.symbol .leftSquare :: commas (items.map write) ++ [.symbol .rightSquare]) := by
  refine of_token id rfl ?_
  intro rewinds bound c c' hkind hbound hsaid _
  refine Gives.bind_peekKind ?_
  rw [hkind]
  refine Gives.bind_advance ((sequence rfl h hbound hsaid).bind fun items' hitems => ?_)
  exact Gives.spanned fun _ => by simp [Node.erase, Form.erase, eraseNodes_eq_map, hitems]

/-- An entry of an object. -/
theorem entry {key : Ident} (h : Reads node .whole words) :
    ItemReads .rightBrace (Production.entry (Rule.parseWithin rewinds bound)) bound
      (.key key.name :: .symbol .colon :: words)
      (fun entry => (entry.1.erase, entry.2.erase) = (key.erase, node.erase)) where
  starts := by
    rintro c c' ⟨⟨hkind | hkind, -⟩, -⟩
    · rw [hkind]
      decide
    · rw [hkind]
      decide
  gives := by
    rintro c c' hbound ⟨⟨hkind, hlexeme⟩, hne, hcolon, hne', hsaid⟩ hend
    have hlt := Cursor.advance_lt hne
    have hlt' := Cursor.advance_lt hne'
    have hbinding : c'.current.kind.binding ≤ .whole := by
      rcases hend with hend | hend
      · rw [hend]
        decide
      · rw [hend]
        decide
    have hvalue : (Rule.expr.parseWithin rewinds bound).Gives c.advance.advance c'
        (·.erase = node.erase) := h.gives_expr (by omega) hsaid hbinding
    refine Gives.bind_peekKind ?_
    rcases hkind with hkind | hkind
    all_goals
      rw [hkind]
      refine Gives.bind_advance (Gives.bind_expect hcolon (hvalue.bind fun value hread => ?_))
      exact Gives.pure (by simp [erase_identOf hlexeme, hread])

theorem object {entries : List (Ident × Node)} (write : Node → List Word)
    (h : ∀ entry ∈ entries, Reads entry.2 .whole (write entry.2)) :
    Reads (.mk (.object entries) span) .atom
      (.symbol .leftBrace :: commas (entries.map fun entry =>
        .key entry.1.name :: .symbol .colon :: write entry.2) ++ [.symbol .rightBrace]) := by
  refine of_token id rfl ?_
  intro rewinds bound c c' hkind hbound hsaid _
  have hitems : List.Forall₂ (fun words value => ItemReads .rightBrace
      (Production.entry (Rule.parseWithin rewinds bound)) bound words
      (fun entry => (entry.1.erase, entry.2.erase) = value))
      (entries.map fun entry => .key entry.1.name :: .symbol .colon :: write entry.2)
      (entries.map fun entry => (entry.1.erase, entry.2.erase)) := by
    rw [List.forall₂_map_left_iff, List.forall₂_map_right_iff, List.forall₂_same]
    exact fun entry hentry => (h entry hentry).entry
  have hentries := sequence_gives (by decide) hitems (Nat.lt_succ_of_lt hbound) hbound hsaid
  refine Gives.bind_peekKind ?_
  rw [hkind]
  refine Gives.bind_advance (hentries.bind fun entries' hread => ?_)
  exact Gives.spanned fun _ => by simp [Node.erase, Form.erase, eraseEntries_eq_map, hread]

/-! ## Assignments -/

theorem declaration_gives {ident : Ident} {isPublic : Bool} (h : Reads node .whole words)
    (hbound : c.upcoming.length ≤ bound)
    (hsaid : c.Says (.keyword .let_ :: .ident ident.name :: AssignOp.set.word :: words) c')
    (hbinding : c'.current.kind.binding ≤ .whole) :
    (Production.declaration (Rule.parseWithin rewinds bound) isPublic).Gives c c'
      (·.erase = (Node.mk (.assign ident .set node true isPublic) span).erase) := by
  obtain ⟨-, hne, ⟨hkind, hlexeme⟩, hne₁, hequal, hne₂, hvalue⟩ := hsaid
  have hlt := Cursor.advance_lt hne
  have hlt₁ := Cursor.advance_lt hne₁
  have hlt₂ := Cursor.advance_lt hne₂
  refine Gives.bind_advance (Gives.bind_ident hkind (Gives.bind_expect hequal ?_))
  refine (h.gives_expr (by omega) hvalue hbinding).bind fun value hread => ?_
  exact Gives.spanned fun _ => by simp [Node.erase, Form.erase, erase_identOf hlexeme, hread]

theorem declaration {ident : Ident} (h : Reads node .whole words) :
    Reads (.mk (.assign ident .set node true false) span) .loose
      (.keyword .let_ :: .ident ident.name :: AssignOp.set.word :: words) where
  starts := by
    rintro c c' ⟨hkind, -⟩
    rw [show c.current.kind = _ from hkind]
    rfl
  resumes := by
    intro rewinds bound c c' hbound hsaid hbinding _
    refine .of_gives (fun _ _ => rfl) (Gives.bind_peekKind ?_)
    rw [if_pos (show c.current.kind = .keyword .let_ from hsaid.1)]
    exact declaration_gives h hbound hsaid (Nat.le_trans hbinding (by decide))

theorem erase_withSpan (node : Node) (span : Span) : (node.withSpan span).erase = node.erase := by
  cases node
  rfl

theorem publicDeclaration {ident : Ident} (h : Reads node .whole words) :
    Reads (.mk (.assign ident .set node true true) span) .loose
      (.keyword .public_ :: .keyword .let_ :: .ident ident.name :: AssignOp.set.word :: words) := by
  refine of_token id rfl ?_
  intro rewinds bound c c' hkind hbound hsaid hbinding
  refine Gives.bind_peekKind ?_
  rw [hkind]
  refine Gives.bind_advance (Gives.bind_peekKind ?_)
  rw [show c.advance.current.kind = .keyword .let_ from hsaid.1, hkind]
  exact (declaration_gives h hbound.le hsaid (Nat.le_trans hbinding (by decide))).bind
    fun read hread => Gives.pure ((erase_withSpan _ _).trans hread)

theorem assign {ident : Ident} {op : AssignOp} (h : Reads node .whole words) :
    Reads (.mk (.assign ident op node false false) span) .loose
      (.ident ident.name :: op.word :: words) := by
  refine of_atom ?_ ?_
  · rintro c c' ⟨⟨hkind, -⟩, -⟩
    rw [hkind]
    rfl
  · rintro rewinds bound c c' hbound ⟨⟨hkind, hlexeme⟩, hne, hword, hne', hsaid⟩ hbinding -
    have hlt := Cursor.advance_lt hne
    have hlt' := Cursor.advance_lt hne'
    refine Gives.bind_peekKind ?_
    rw [hkind]
    refine Gives.bind_ident hkind (Gives.bind_peekKind ?_)
    rw [AssignOp.fits_word_iff.1 hword]
    refine Gives.bind_discard_advance ?_
    refine (h.gives_expr (by omega) hsaid (Nat.le_trans hbinding (by decide))).bind
      fun value hread => Gives.pure ?_
    simp [Node.erase, Form.erase, erase_identOf hlexeme, hread]

end Reads

/-- The `.name` segments in front of an assignment. -/
theorem segments_gives : ∀ {bound : Nat} {path : List Ident} {c c' : Cursor},
    c.upcoming.length < bound →
    c.Says (path.flatMap fun ident => [.symbol .dot, .ident ident.name]) c' →
    (AssignOp.ofToken? c'.current.kind).isSome = true →
    (segments bound).Gives c c' (·.map Ident.erase = path.map Ident.erase)
  | 0, _, _, _, hbound, _, _ => absurd hbound (Nat.not_lt_zero _)
  | bound + 1, [], c, c', hbound, hsaid, hassign => by
    obtain rfl : c = c' := hsaid
    refine Gives.bind_get ?_
    split
    · next hdot _ =>
      rw [hdot] at hassign
      cases hassign
    · exact Gives.pure rfl
  | bound + 1, ident :: path, c, c', hbound, hsaid, hassign => by
    rw [List.flatMap_cons] at hsaid
    obtain ⟨hdot, hne, ⟨hkind, hlexeme⟩, hne', hsaid⟩ := hsaid
    have hlt := Cursor.advance_lt hne
    have hlt' := Cursor.advance_lt hne'
    refine Gives.bind_get ?_
    split
    · next next rest _ hnext =>
      have hcurrent : c.advance.current = next := by rw [Cursor.advance, hnext]
      rw [if_pos (by rw [← hcurrent, hkind]), ← hcurrent]
      refine Gives.bind_discard_advance (Gives.bind_discard_advance ?_)
      refine (segments_gives (by omega) hsaid hassign).bind fun further hread => Gives.pure ?_
      simp [erase_identOf hlexeme, hread]
    · next hno =>
      obtain ⟨next, rest, hnext⟩ := List.exists_cons_of_ne_nil hne
      exact (hno next rest hdot hnext).elim

namespace Reads

theorem memberAssign {path : List Ident} {op : AssignOp} (hpath : 2 ≤ path.length)
    (h : Reads node .whole words) :
    Reads (.mk (.memberAssign path op node) span) .loose
      ([.symbol .dot].intercalate (path.map fun ident => [.ident ident.name]) ++
        op.word :: words) := by
  obtain ⟨first, second, rest, rfl⟩ : ∃ first second rest, path = first :: second :: rest := by
    rcases path with _ | ⟨first, _ | ⟨second, rest⟩⟩
    · exact absurd hpath (by decide)
    · exact absurd hpath (by simp)
    · exact ⟨first, second, rest, rfl⟩
  have hwords : [.symbol .dot].intercalate
      ((first :: second :: rest).map fun ident => [Word.ident ident.name]) =
      .ident first.name ::
        (second :: rest).flatMap fun ident => [.symbol .dot, .ident ident.name] := by
    rw [List.map_cons, intercalate_cons, List.flatMap_map]
    rfl
  rw [hwords]
  refine of_atom ?_ ?_
  · rintro c c' ⟨⟨hkind, -⟩, -⟩
    rw [hkind]
    rfl
  · rintro rewinds bound c c' hbound ⟨⟨hkind, hlexeme⟩, hne, hsaid⟩ hbinding -
    have hdot : c.advance.current.kind = .symbol .dot := by
      rw [List.flatMap_cons] at hsaid
      exact hsaid.1
    obtain ⟨c₁, hsegments, hword, hne', hsaid⟩ := Cursor.says_append.1 hsaid
    have hop := AssignOp.fits_word_iff.1 hword
    have hlt := Cursor.advance_lt hne
    have hlt' := Cursor.advance_lt hne'
    have hle := hsegments.le
    refine Gives.bind_peekKind ?_
    rw [hkind]
    refine Gives.bind_ident hkind (Gives.bind_peekKind ?_)
    rw [show AssignOp.ofToken? c.advance.current.kind = none by rw [hdot]; rfl]
    refine Gives.bind_get ?_
    refine (segments_gives (by omega) hsegments (by rw [hop]; rfl)).bind fun path hread => ?_
    refine Gives.bind_peekKind ?_
    rw [hop]
    cases path with
    | nil => cases hread
    | cons name path =>
      refine Gives.bind_discard_advance ?_
      refine (h.gives_expr (by omega) hsaid (Nat.le_trans hbinding (by decide))).bind
        fun value hvalue => Gives.pure ?_
      simp [Node.erase, Form.erase, erase_identOf hlexeme, hvalue] at hread ⊢
      exact hread

end Reads

end BpScript
