import BpScript.Proofs.ReadBack.Steps

/-!
# Reading expressions back

How far an expression is read depends on the place it stands at and on the token behind it.  A
parser for chains or suffixes does not stop behind its first operand, so what is said of it is that
it goes on from there with what it has read so far.

* `TokenKind.binding` — how tightly a token holds on to the expression in front of it.
* `TokenKind.opens` — the tokens that an expression of a grade can start with.
* `Grade.parser`, `Grade.resume` — the parser for a grade, and how it goes on behind an operand.
* `Reads` — a node is read from words at a place.
* **`Reads.loosen`** — what is read at a place is read at all looser ones.
* `Reads.chain`, `Reads.power`, `Reads.signed`, `Reads.member`, … — one lemma for each operator.
-/

namespace BpScript

open Parse Production

/-! ## Tokens in front of and behind expressions -/

/-- How tightly a token of this kind holds on to the expression in front of it. -/
def TokenKind.binding : TokenKind → Grade
  | .symbol .dot | .symbol .leftParen | .symbol .caret => .suffix
  | .symbol .equal | .symbol .plusEqual | .symbol .minusEqual => .atom
  | .keyword .elif_ | .keyword .else_ => .whole
  | kind =>
    match (BinaryOp.ofToken? kind).bind BinaryOp.level? with
    | some level => .chain level
    | none => .loose

/-- Whether an expression of this grade can start with a token of this kind. -/
def TokenKind.opens (grade : Grade) : TokenKind → Bool
  | .int | .float | .string | .ident => true
  | .symbol .leftParen | .symbol .leftSquare | .symbol .leftBrace => true
  | .symbol .plus | .symbol .minus => grade ≤ .sign
  | .keyword .not_ => grade ≤ .negation
  | .keyword .let_ => grade ≤ .loose
  | .keyword .true_ | .keyword .false_ | .keyword .null_ => true
  | .keyword .if_ | .keyword .for_ | .keyword .while_ | .keyword .switch_ => true
  | .keyword .func_ | .keyword .public_ | .keyword .import_ => true
  | _ => false

/-- A looser place takes more. -/
theorem TokenKind.opens_of_le {kind : TokenKind} {g h : Grade} (hle : g ≤ h)
    (hopens : kind.opens h = true) : kind.opens g = true := by
  have hle : g.rank ≤ h.rank := hle
  unfold opens at hopens ⊢
  split at hopens
  all_goals first
    | rfl
    | exact decide_eq_true (hle.trans (of_decide_eq_true hopens : h.rank ≤ _))
    | cases hopens

theorem TokenKind.opens_closing {close : Symbol} {grade : Grade} (h : close.isClosing = true) :
    (TokenKind.symbol close).opens grade = false := by
  cases close <;> first | rfl | cases h

theorem TokenKind.binding_closing {close : Symbol} (h : close.isClosing = true) :
    (TokenKind.symbol close).binding = .loose := by
  cases close <;> first | rfl | cases h

/-- An operator of a level holds on as tightly as the level does. -/
theorem Level.binding_of_operator? {level : Level} {kind : TokenKind} {op : BinaryOp}
    (h : level.operator? kind = some op) : kind.binding = .chain level := by
  obtain ⟨hop, hlevel⟩ := Option.filter_eq_some_iff.1 h
  unfold BinaryOp.ofToken? at hop
  split at hop
  all_goals cases hop
  all_goals cases (of_decide_eq_true hlevel : _ = some level)
  all_goals rfl

/-- No token holds on just as tightly as a power does. -/
theorem TokenKind.binding_le_sign {kind : TokenKind} (h : kind.binding ≤ .power) :
    kind.binding ≤ .sign := by
  have hne : kind.binding ≠ .power := by
    unfold binding
    split
    all_goals first
      | decide
      | (split <;> simp)
  have hrank : kind.binding.rank ≠ Grade.power.rank := fun heq => hne (Grade.rank_injective heq)
  exact Nat.le_of_lt_succ (Nat.lt_of_le_of_ne h hrank)

/-! A variable is told from an assignment by what stands behind the dotted names. -/

/-- No assignment stands here, nor behind the `.name` segments from here on. -/
def Cursor.Unassigned (c : Cursor) : Prop :=
  AssignOp.ofToken? c.current.kind = none ∧
    ∀ bound : Nat, c.upcoming.length < bound → ∃ c' : Cursor,
      (segments bound).Gives c c' (fun _ => True) ∧ AssignOp.ofToken? c'.current.kind = none

theorem Cursor.unassigned_of_ne {c : Cursor} (hdot : c.current.kind ≠ .symbol .dot)
    (hassign : AssignOp.ofToken? c.current.kind = none) : c.Unassigned := by
  refine ⟨hassign, fun bound hbound => ?_⟩
  obtain ⟨bound, rfl⟩ := Nat.exists_eq_add_one_of_ne_zero (Nat.ne_zero_of_lt hbound)
  refine ⟨c, Gives.bind_get ?_, hassign⟩
  split
  · next h _ => exact absurd h hdot
  · exact Gives.pure trivial

theorem Cursor.unassigned_of_segment {c : Cursor} (hdot : c.current.kind = .symbol .dot)
    (hne : c.upcoming ≠ []) (hname : c.advance.current.kind = .ident)
    (hne' : c.advance.upcoming ≠ []) (h : c.advance.advance.Unassigned) : c.Unassigned := by
  refine ⟨by rw [hdot]; rfl, fun bound hbound => ?_⟩
  obtain ⟨bound, rfl⟩ := Nat.exists_eq_add_one_of_ne_zero (Nat.ne_zero_of_lt hbound)
  have hlt := advance_lt hne
  have hlt' := advance_lt hne'
  obtain ⟨c', hpath, hassign⟩ := h.2 bound (by omega)
  refine ⟨c', Gives.bind_get ?_, hassign⟩
  split
  · next next rest _ hnext =>
    have hident : next.kind = .ident := by
      rw [← hname, Cursor.advance, hnext]
    rw [if_pos hident]
    refine Gives.bind_discard_advance (Gives.bind_discard_advance ?_)
    exact hpath.bind fun path _ => Gives.pure trivial
  · next hno =>
    obtain ⟨next, rest, hnext⟩ := List.exists_cons_of_ne_nil hne
    exact (hno next rest hdot hnext).elim

/-- Behind a token that is looser than a suffix, nothing is assigned to. -/
theorem Cursor.unassigned_of_binding {c : Cursor} (h : c.current.kind.binding ≤ .power) :
    c.Unassigned := by
  refine unassigned_of_ne ?_ ?_
  · intro hdot
    rw [hdot] at h
    exact absurd h (by decide)
  · cases hassign : AssignOp.ofToken? c.current.kind with
    | none => rfl
    | some op =>
      have hfits := AssignOp.fits_word_iff.2 hassign
      cases op
      all_goals
        rw [show c.current.kind = _ from hfits] at h
        exact absurd h (by decide)

/-! ## Parsers for grades -/

namespace Grade

/-- What reads an expression at a place of this grade. -/
def parser (rewinds : Bool) (bound : Nat) : Grade → Parse Node
  | .loose | .whole => expr (bound + 1) (Rule.parseWithin rewinds bound)
  | .chain .disjunction =>
    Production.chain (bound + 1) .disjunction <| Production.chain (bound + 1) .conjunction <|
      Production.negation (bound + 1) (Rule.parseWithin rewinds bound)
  | .chain .conjunction =>
    Production.chain (bound + 1) .conjunction <|
      Production.negation (bound + 1) (Rule.parseWithin rewinds bound)
  | .negation => Production.negation (bound + 1) (Rule.parseWithin rewinds bound)
  | .chain .comparison =>
    Production.chain (bound + 1) .comparison <| Production.chain (bound + 1) .sum <|
      Production.chain (bound + 1) .product <|
      signed (bound + 1) (Rule.parseWithin rewinds bound)
  | .chain .sum =>
    Production.chain (bound + 1) .sum <| Production.chain (bound + 1) .product <|
      signed (bound + 1) (Rule.parseWithin rewinds bound)
  | .chain .product =>
    Production.chain (bound + 1) .product <| signed (bound + 1) (Rule.parseWithin rewinds bound)
  | .sign => signed (bound + 1) (Rule.parseWithin rewinds bound)
  | .power => Production.power (bound + 1) (Rule.parseWithin rewinds bound)
  | .suffix => suffixed (bound + 1) (Rule.parseWithin rewinds bound)
  | .atom => Production.atom (bound + 1) (Rule.parseWithin rewinds bound)

theorem parser_chain (rewinds : Bool) (bound : Nat) (level : Level) :
    parser rewinds bound (.chain level) =
      Production.chain (bound + 1) level (level.tighter.parser rewinds bound) := by
  cases level <;> rfl

/-- How the parser goes on behind what it has read so far. -/
def resume (rewinds : Bool) (bound : Nat) : Grade → (rest : Nat) → Node → Parse Node
  | .chain level, rest, node => chainFrom level (level.tighter.parser rewinds bound) rest node
  | .suffix, rest, node => suffixes (bound + 1) (Rule.parseWithin rewinds bound) rest node
  | _, _, node => pure node

/-- From `c` on, the parser reads a node like `node`, and goes on with it from `c'`. -/
def Resumes (grade : Grade) (rewinds : Bool) (bound : Nat) (node : Node) (c c' : Cursor) : Prop :=
  ∃ (rest : Nat) (read : Node), read.erase = node.erase ∧ c'.upcoming.length < rest ∧
    grade.parser rewinds bound c = grade.resume rewinds bound rest read c'

variable {rewinds : Bool} {bound : Nat} {node : Node} {c c' : Cursor} {grade : Grade}

/-- An operand that no operator of the level follows. -/
theorem chainFrom_stops {level : Level} {operand : Parse Node} {rest : Nat}
    (hrest : c.upcoming.length < rest) (hbinding : c.current.kind.binding < .chain level) :
    chainFrom level operand rest node c = .ok (node, c) := by
  obtain ⟨rest, rfl⟩ := Nat.exists_eq_add_one_of_ne_zero (Nat.ne_zero_of_lt hrest)
  have hnone : level.operator? c.current.kind = none := by
    cases hop : level.operator? c.current.kind with
    | none => rfl
    | some op =>
      rw [Level.binding_of_operator? hop] at hbinding
      exact absurd hbinding (Nat.lt_irrefl _)
  unfold chainFrom
  rw [run_bind_ok rfl, hnone]
  rfl

/-- An operator of the level, and the operand behind it. -/
theorem chainFrom_step {level : Level} {operand : Parse Node} {rest : Nat} {op : BinaryOp}
    {rhs : Node} (hop : level.operator? c.current.kind = some op)
    (hrhs : operand c.advance = .ok (rhs, c')) :
    chainFrom level operand (rest + 1) node c =
      chainFrom level operand rest (.mk (.binary node op rhs) (node.span.through rhs.span)) c' := by
  rw [chainFrom, run_bind_ok rfl, hop]
  show (discard advance >>= _) c = _
  rw [run_bind_ok rfl, run_bind_ok hrhs]

/-- A target that neither a point nor an argument list follows. -/
theorem suffixes_stops {sub : Rule → Parse Node} {rest : Nat} (hrest : c.upcoming.length < rest)
    (hdot : c.current.kind ≠ .symbol .dot) (hparen : c.current.kind ≠ .symbol .leftParen) :
    suffixes bound sub rest node c = .ok (node, c) := by
  obtain ⟨rest, rfl⟩ := Nat.exists_eq_add_one_of_ne_zero (Nat.ne_zero_of_lt hrest)
  unfold suffixes
  rw [run_bind_ok (accept_of_ne hdot)]
  show (accept (.symbol .leftParen) >>= _) c = _
  rw [run_bind_ok (accept_of_ne hparen)]
  rfl

/-- A point and a name. -/
theorem suffixes_member {sub : Rule → Parse Node} {rest : Nat}
    (hdot : c.current.kind = .symbol .dot) (hname : c.advance.current.kind = .ident) :
    suffixes bound sub (rest + 1) node c =
      suffixes bound sub rest (.mk (.member node (identOf c.advance.current))
        (node.span.through c.advance.current.span)) c.advance.advance := by
  rw [suffixes, run_bind_ok (accept_of_eq hdot)]
  show (ident >>= _) c.advance = _
  rw [run_bind_ok (run_bind_ok (Gives.run_expect hname))]
  rfl

/-- An argument list. -/
theorem suffixes_call {sub : Rule → Parse Node} {rest : Nat} {args : List Node}
    (hparen : c.current.kind = .symbol .leftParen)
    (hargs : sequence bound .rightParen (sub .expr) c.advance = .ok (args, c')) :
    suffixes bound sub (rest + 1) node c =
      suffixes bound sub rest (.mk (.call node args) (c'.spanFrom node.span)) c' := by
  rw [suffixes, run_bind_ok (accept_of_ne (by rw [hparen]; decide))]
  show (accept (.symbol .leftParen) >>= _) c = _
  rw [run_bind_ok (accept_of_eq hparen)]
  show (sequence bound .rightParen (sub .expr) >>= _) c.advance = _
  rw [run_bind_ok hargs]
  rfl

/-- In front of a looser token the parser stops. -/
theorem Resumes.gives (h : grade.Resumes rewinds bound node c c')
    (hbinding : c'.current.kind.binding < grade) :
    (grade.parser rewinds bound).Gives c c' (·.erase = node.erase) := by
  obtain ⟨rest, read, hread, hrest, hrun⟩ := h
  refine ⟨read, hrun.trans ?_, hread⟩
  cases grade
  case chain level => exact chainFrom_stops hrest hbinding
  case suffix =>
    refine suffixes_stops hrest ?_ ?_
    all_goals
      intro hkind
      rw [hkind] at hbinding
      exact absurd hbinding (by decide)
  all_goals rfl

theorem Resumes.gives_of_pure (h : grade.Resumes rewinds bound node c c')
    (hresume : ∀ rest read, grade.resume rewinds bound rest read = pure read) :
    (grade.parser rewinds bound).Gives c c' (·.erase = node.erase) := by
  obtain ⟨rest, read, hread, -, hrun⟩ := h
  rw [hresume] at hrun
  exact ⟨read, hrun, hread⟩

theorem Resumes.of_gives (hresume : ∀ rest read, grade.resume rewinds bound rest read = pure read)
    (h : (grade.parser rewinds bound).Gives c c' (·.erase = node.erase)) :
    grade.Resumes rewinds bound node c c' := by
  obtain ⟨read, hrun, hread⟩ := h
  refine ⟨_, read, hread, Nat.lt_succ_self _, ?_⟩
  rw [hresume]
  exact hrun

/-! ### From a place to the next looser one -/

/-- The next looser grade. -/
def looser : Grade → Grade
  | .atom => .suffix
  | .suffix => .power
  | .power => .sign
  | .sign => .chain .product
  | .chain .product => .chain .sum
  | .chain .sum => .chain .comparison
  | .chain .comparison => .negation
  | .negation => .chain .conjunction
  | .chain .conjunction => .chain .disjunction
  | .chain .disjunction => .whole
  | .whole | .loose => .loose

theorem le_atom (grade : Grade) : grade ≤ .atom := by
  rcases grade with _ | _ | (_ | _ | _ | _ | _) | _ | _ | _ | _ | _ <;> decide

theorem rank_looser (grade : Grade) : grade.looser.rank = grade.rank - 1 := by
  rcases grade with _ | _ | (_ | _ | _ | _ | _) | _ | _ | _ | _ | _ <;> rfl

theorem Resumes.suffix (h : Grade.atom.Resumes rewinds bound node c c')
    (hbound : c'.upcoming.length ≤ bound) : Grade.suffix.Resumes rewinds bound node c c' := by
  obtain ⟨_, read, hread, -, hrun⟩ := h
  exact ⟨bound + 1, read, hread, Nat.lt_succ_of_le hbound, run_bind_ok hrun⟩

theorem Resumes.power (h : Grade.suffix.Resumes rewinds bound node c c')
    (hbinding : c'.current.kind.binding ≤ .power) :
    Grade.power.Resumes rewinds bound node c c' := by
  have hcaret : c'.current.kind ≠ .symbol .caret := by
    intro hkind
    rw [hkind] at hbinding
    exact absurd hbinding (by decide)
  refine .of_gives (fun _ _ => rfl) ?_
  refine Gives.bind (h.gives (Nat.lt_succ_of_le hbinding)) fun read hread => ?_
  exact Gives.unlessAccept hcaret (Gives.pure hread)

theorem Resumes.sign (h : Grade.power.Resumes rewinds bound node c c')
    (hopens : c.current.kind.opens .power = true) (hbinding : c'.current.kind.binding ≤ .sign) :
    Grade.sign.Resumes rewinds bound node c c' := by
  refine .of_gives (fun _ _ => rfl) (Gives.bind_peek ?_)
  split
  · next hkind =>
    rw [hkind] at hopens
    cases hopens
  · next hkind =>
    rw [hkind] at hopens
    cases hopens
  · exact h.gives (Nat.lt_succ_of_le hbinding)

/-- An operand starts a chain. -/
theorem Resumes.chain (level : Level) (h : level.tighter.Resumes rewinds bound node c c')
    (hbound : c'.upcoming.length ≤ bound) (hbinding : c'.current.kind.binding ≤ .chain level) :
    (Grade.chain level).Resumes rewinds bound node c c' := by
  have hlt : (Grade.chain level).rank < level.tighter.rank := by cases level <;> decide
  obtain ⟨read, hrun, hread⟩ := h.gives (Nat.lt_of_le_of_lt hbinding hlt)
  refine ⟨bound + 1, read, hread, Nat.lt_succ_of_le hbound, ?_⟩
  rw [parser_chain]
  exact run_bind_ok hrun

theorem Resumes.negation (h : (Grade.chain .comparison).Resumes rewinds bound node c c')
    (hopens : c.current.kind.opens (.chain .comparison) = true)
    (hbinding : c'.current.kind.binding ≤ .negation) :
    Grade.negation.Resumes rewinds bound node c c' := by
  have hnot : c.current.kind ≠ .keyword .not_ := by
    intro hkind
    rw [hkind] at hopens
    cases hopens
  refine .of_gives (fun _ _ => rfl) (Gives.bind_peek ?_)
  rw [if_neg hnot]
  exact h.gives (Nat.lt_succ_of_le hbinding)

theorem Resumes.whole (h : (Grade.chain .disjunction).Resumes rewinds bound node c c')
    (hopens : c.current.kind.opens (.chain .disjunction) = true)
    (hbinding : c'.current.kind.binding ≤ .whole) :
    Grade.whole.Resumes rewinds bound node c c' := by
  have hlet : c.current.kind ≠ .keyword .let_ := by
    intro hkind
    rw [hkind] at hopens
    cases hopens
  refine .of_gives (fun _ _ => rfl) (Gives.bind_peekKind ?_)
  rw [if_neg hlet]
  exact h.gives (Nat.lt_succ_of_le hbinding)

/-- One grade after the other: each parser first reads the next tighter grade. -/
theorem Resumes.looser (h : grade.Resumes rewinds bound node c c')
    (hbound : c'.upcoming.length ≤ bound) (hopens : c.current.kind.opens grade = true)
    (hbinding : c'.current.kind.binding ≤ grade.looser) :
    grade.looser.Resumes rewinds bound node c c' := by
  rcases grade with _ | _ | (_ | _ | _ | _ | _) | _ | _ | _ | _ | _
  · exact h
  · exact h
  · exact h.whole hopens hbinding
  · exact Resumes.chain .disjunction h hbound hbinding
  · exact h.negation hopens hbinding
  · exact Resumes.chain .comparison h hbound hbinding
  · exact Resumes.chain .sum h hbound hbinding
  · exact Resumes.chain .conjunction h hbound hbinding
  · exact Resumes.chain .product h hbound hbinding
  · exact h.sign hopens hbinding
  · exact h.power hbinding
  · exact h.suffix hbound

/-- **What is read at a place is read at all looser ones**, if the token behind it is looser too. -/
theorem Resumes.loosen {place : Grade} (h : grade.Resumes rewinds bound node c c')
    (hle : place ≤ grade) (hbound : c'.upcoming.length ≤ bound)
    (hopens : c.current.kind.opens grade = true) (hbinding : c'.current.kind.binding ≤ place) :
    place.Resumes rewinds bound node c c' := by
  generalize hdistance : grade.rank - place.rank = distance
  induction distance generalizing grade with
  | zero =>
    have hle : place.rank ≤ grade.rank := hle
    have heq : place = grade := rank_injective (by omega)
    exact heq ▸ h
  | succ distance ih =>
    have hrank := grade.rank_looser
    have hplace : place ≤ grade.looser := show place.rank ≤ grade.looser.rank by omega
    have hlooser : grade.looser.rank ≤ grade.rank := by omega
    exact ih (h.looser hbound hopens (Nat.le_trans hbinding hplace)) hplace
      (TokenKind.opens_of_le hlooser hopens) (by omega)

end Grade

/-! ## Nodes that are read from words -/

/-- At a place of this grade, `node` is read from `words`, if the token behind them is not
tighter. -/
structure Reads (node : Node) (grade : Grade) (words : List Word) : Prop where
  starts {c c' : Cursor} : c.Says words c' → c.current.kind.opens grade = true
  resumes {rewinds : Bool} {bound : Nat} {c c' : Cursor} : c.upcoming.length ≤ bound →
    c.Says words c' → c'.current.kind.binding ≤ grade → c'.Unassigned →
    grade.Resumes rewinds bound node c c'

namespace Reads

variable {node lhs rhs : Node} {grade place : Grade} {words words' : List Word} {rewinds : Bool}
  {bound : Nat} {c c' : Cursor} {span : Span}

theorem loosen (h : Reads node grade words) (hle : place ≤ grade) : Reads node place words where
  starts hsaid := TokenKind.opens_of_le hle (h.starts hsaid)
  resumes hbound hsaid hbinding hfree :=
    (h.resumes hbound hsaid (Nat.le_trans hbinding hle) hfree).loosen hle (hsaid.le.trans hbound)
      (h.starts hsaid) hbinding

/-- The rules that nest read what stands at their places. -/
theorem gives_rule {rule : Rule} (h : Reads node grade words)
    (hrule : ∀ bound, rule.parseWithin rewinds (bound + 1) = grade.parser rewinds bound)
    (hresume : ∀ bound rest read, grade.resume rewinds bound rest read = pure read)
    (hgrade : grade ≤ .power) (hbound : c.upcoming.length < bound) (hsaid : c.Says words c')
    (hbinding : c'.current.kind.binding ≤ grade) :
    (rule.parseWithin rewinds bound).Gives c c' (·.erase = node.erase) := by
  obtain ⟨bound, rfl⟩ := Nat.exists_eq_add_one_of_ne_zero (Nat.ne_zero_of_lt hbound)
  rw [hrule]
  have hfree := Cursor.unassigned_of_binding (Nat.le_trans hbinding hgrade)
  exact (h.resumes (Nat.le_of_lt_succ hbound) hsaid hbinding hfree).gives_of_pure (hresume bound)

theorem gives_expr (h : Reads node .whole words) (hbound : c.upcoming.length < bound)
    (hsaid : c.Says words c') (hbinding : c'.current.kind.binding ≤ .whole) :
    (Rule.expr.parseWithin rewinds bound).Gives c c' (·.erase = node.erase) :=
  h.gives_rule (fun _ => rfl) (fun _ _ _ => rfl) (by decide) hbound hsaid hbinding

/-- In front of a token that holds on to nothing, every form is read. -/
theorem gives_loose (h : Reads node .loose words) (hbound : c.upcoming.length < bound)
    (hsaid : c.Says words c') (hbinding : c'.current.kind.binding ≤ .loose) :
    (Rule.expr.parseWithin rewinds bound).Gives c c' (·.erase = node.erase) :=
  h.gives_rule (fun _ => rfl) (fun _ _ _ => rfl) (by decide) hbound hsaid hbinding

/-! ### Operators -/

theorem chain {level : Level} {op : BinaryOp} (hlevel : op.level? = some level)
    (hlhs : Reads lhs (.chain level) words) (hrhs : Reads rhs level.tighter words') :
    Reads (.mk (.binary lhs op rhs) span) (.chain level) (words ++ op.word :: words') where
  starts hsaid := by
    obtain ⟨c₁, hleft, -⟩ := Cursor.says_append.1 hsaid
    exact hlhs.starts hleft
  resumes := by
    intro rewinds bound c c' hbound hsaid hbinding hfree
    obtain ⟨c₁, hleft, hword, hne, hright⟩ := Cursor.says_append.1 hsaid
    have hop : level.operator? c₁.current.kind = some op := by
      rw [Level.operator?, BinaryOp.fits_word_iff.1 hword]
      simp [hlevel]
    have hbinding₁ := Level.binding_of_operator? hop
    have hle := hleft.le
    have hlt := Cursor.advance_lt hne
    have hle' := hright.le
    have htighter : (Grade.chain level).rank < level.tighter.rank := by cases level <;> decide
    have hlt' : c'.current.kind.binding < level.tighter := Nat.lt_of_le_of_lt hbinding htighter
    -- the left operand is what the chain has read so far
    have hlhs' : (Grade.chain level).Resumes rewinds bound lhs c c₁ :=
      hlhs.resumes hbound hleft (Nat.le_of_eq (congrArg Grade.rank hbinding₁))
        (Cursor.unassigned_of_binding (by rw [hbinding₁]; cases level <;> decide))
    have hrhs' : level.tighter.Resumes rewinds bound rhs c₁.advance c' :=
      hrhs.resumes (by omega) hright (Nat.le_of_lt hlt') hfree
    obtain ⟨rest, left, hleft', hrest, hrun⟩ := hlhs'
    obtain ⟨right, hrun', hright'⟩ := hrhs'.gives hlt'
    obtain ⟨rest, rfl⟩ := Nat.exists_eq_add_one_of_ne_zero (Nat.ne_zero_of_lt hrest)
    refine ⟨rest, .mk (.binary left op right) (left.span.through right.span), ?_, by omega, ?_⟩
    · simp [Node.erase, Form.erase, hleft', hright']
    · exact hrun.trans (Grade.chainFrom_step hop hrun')

theorem power (hbase : Reads lhs .suffix words) (hexponent : Reads rhs .sign words') :
    Reads (.mk (.binary lhs .power rhs) span) .power (words ++ BinaryOp.power.word :: words') where
  starts hsaid := by
    obtain ⟨c₁, hleft, -⟩ := Cursor.says_append.1 hsaid
    exact TokenKind.opens_of_le (by decide) (hbase.starts hleft)
  resumes := by
    intro rewinds bound c c' hbound hsaid hbinding hfree
    obtain ⟨c₁, hleft, hcaret, hne, hright⟩ := Cursor.says_append.1 hsaid
    have hcaret : c₁.current.kind = .symbol .caret := hcaret
    have hle := hleft.le
    have hlt := Cursor.advance_lt hne
    have hbase' : Grade.suffix.Resumes rewinds bound lhs c c₁ :=
      hbase.resumes hbound hleft (by rw [hcaret]; decide)
        (Cursor.unassigned_of_ne (by rw [hcaret]; decide) (by rw [hcaret]; rfl))
    obtain ⟨rest, base, hbase', hrest, hrun⟩ := hbase'
    rw [show Grade.suffix.resume rewinds bound rest base c₁ = .ok (base, c₁) from
      Grade.suffixes_stops hrest (by rw [hcaret]; decide) (by rw [hcaret]; decide)] at hrun
    refine .of_gives (fun _ _ => rfl) (Gives.bind_run hrun (Gives.ifAccept hcaret ?_))
    have hexponent' : (Rule.signed.parseWithin rewinds bound).Gives c₁.advance c'
        (·.erase = rhs.erase) :=
      hexponent.gives_rule (fun _ => rfl) (fun _ _ _ => rfl) (by decide) (by omega) hright
        (TokenKind.binding_le_sign hbinding)
    refine hexponent'.bind fun exponent hread => Gives.pure ?_
    simp [Node.erase, Form.erase, hbase', hread]

theorem signed {op : UnaryOp} (hop : op.grade = .sign) (h : Reads node .sign words) :
    Reads (.mk (.unary op node) span) .sign (op.word :: words) where
  starts := by
    rintro c c' ⟨hword, -⟩
    cases op
    · rw [show c.current.kind = .symbol .plus from hword]
      rfl
    · rw [show c.current.kind = .symbol .minus from hword]
      rfl
    · cases hop
  resumes := by
    rintro rewinds bound c c' hbound ⟨hword, hne, hsaid⟩ hbinding hfree
    have hlt := Cursor.advance_lt hne
    have hoperand : (Rule.signed.parseWithin rewinds bound).Gives c.advance c'
        (·.erase = node.erase) :=
      h.gives_rule (fun _ => rfl) (fun _ _ _ => rfl) (by decide) (by omega) hsaid hbinding
    refine .of_gives (fun _ _ => rfl) (Gives.bind_peek ?_)
    cases op
    · rw [show c.current.kind = .symbol .plus from hword]
      refine Gives.bind_discard_advance ?_
      refine hoperand.bind fun operand hread => Gives.spanned fun _ => ?_
      simp [Node.erase, Form.erase, hread]
    · rw [show c.current.kind = .symbol .minus from hword]
      refine Gives.bind_discard_advance ?_
      refine hoperand.bind fun operand hread => Gives.spanned fun _ => ?_
      simp [Node.erase, Form.erase, hread]
    · cases hop

theorem negation (h : Reads node .negation words) :
    Reads (.mk (.unary .not node) span) .negation (UnaryOp.not.word :: words) where
  starts := by
    rintro c c' ⟨hword, -⟩
    rw [show c.current.kind = .keyword .not_ from hword]
    rfl
  resumes := by
    rintro rewinds bound c c' hbound ⟨hword, hne, hsaid⟩ hbinding hfree
    have hlt := Cursor.advance_lt hne
    have hoperand : (Rule.negation.parseWithin rewinds bound).Gives c.advance c'
        (·.erase = node.erase) :=
      h.gives_rule (fun _ => rfl) (fun _ _ _ => rfl) (by decide) (by omega) hsaid hbinding
    refine .of_gives (fun _ _ => rfl) (Gives.bind_peek ?_)
    rw [if_pos (show c.current.kind = .keyword .not_ from hword)]
    refine Gives.bind_discard_advance (hoperand.bind fun operand hread => Gives.spanned fun _ => ?_)
    simp [Node.erase, Form.erase, hread]

/-! ### Suffixes -/

theorem member {name : Ident} (h : Reads node .suffix words) :
    Reads (.mk (.member node name) span) .suffix
      (words ++ [.symbol .dot, .ident name.name]) where
  starts hsaid := by
    obtain ⟨c₁, htarget, -⟩ := Cursor.says_append.1 hsaid
    exact h.starts htarget
  resumes := by
    intro rewinds bound c c' hbound hsaid hbinding hfree
    obtain ⟨c₁, htarget, hdot, hne, ⟨hname, hlexeme⟩, hne', rfl⟩ := Cursor.says_append.1 hsaid
    have hdot : c₁.current.kind = .symbol .dot := hdot
    have hlt := Cursor.advance_lt hne
    have hlt' := Cursor.advance_lt hne'
    have htarget' : Grade.suffix.Resumes rewinds bound node c c₁ :=
      h.resumes hbound htarget (by rw [hdot]; decide)
        (Cursor.unassigned_of_segment hdot hne hname hne' hfree)
    obtain ⟨rest, target, hread, hrest, hrun⟩ := htarget'
    obtain ⟨rest, rfl⟩ := Nat.exists_eq_add_one_of_ne_zero (Nat.ne_zero_of_lt hrest)
    refine ⟨rest, _, ?_, by omega, hrun.trans (Grade.suffixes_member hdot hname)⟩
    simp [Node.erase, Form.erase, hread, identOf, Ident.erase, hlexeme]

/-- An expression between commas. -/
theorem item {close : Symbol} (hclose : close.isClosing = true) (h : Reads node .whole words) :
    ItemReads close (Rule.expr.parseWithin rewinds bound) bound words (·.erase = node.erase) where
  starts hsaid := by
    have hopens := h.starts hsaid
    refine ⟨fun hkind => ?_, fun hkind => ?_⟩
    · rw [hkind] at hopens
      cases hopens
    · rw [hkind, TokenKind.opens_closing hclose] at hopens
      cases hopens
  gives hbound hsaid hkind := by
    refine h.gives_expr hbound hsaid ?_
    rcases hkind with hkind | hkind
    · rw [hkind]
      decide
    · rw [hkind, TokenKind.binding_closing hclose]
      decide

/-- Expressions in brackets. -/
theorem sequence {close : Symbol} {nodes : List Node} {write : Node → List Word}
    (hclose : close.isClosing = true) (h : ∀ n ∈ nodes, Reads n .whole (write n))
    (hbound : c.upcoming.length < bound)
    (hsaid : c.Says (commas (nodes.map write) ++ [.symbol close]) c') :
    (Production.sequence (bound + 1) close (Rule.expr.parseWithin rewinds bound)).Gives c c'
      (·.map Node.erase = nodes.map Node.erase) := by
  have hcomma : close ≠ .comma := by
    rintro rfl
    cases hclose
  have hitems : List.Forall₂ (fun words value =>
      ItemReads close (Rule.expr.parseWithin rewinds bound) bound words (·.erase = value))
      (nodes.map write) (nodes.map Node.erase) := by
    rw [List.forall₂_map_left_iff, List.forall₂_map_right_iff, List.forall₂_same]
    exact fun n hn => (h n hn).item hclose
  exact sequence_gives hcomma hitems (Nat.lt_succ_of_lt hbound) hbound hsaid

theorem call {args : List Node} {write : Node → List Word} (h : Reads node .suffix words)
    (hargs : ∀ arg ∈ args, Reads arg .whole (write arg)) :
    Reads (.mk (.call node args) span) .suffix
      (words ++ .symbol .leftParen :: (commas (args.map write) ++ [.symbol .rightParen])) where
  starts hsaid := by
    obtain ⟨c₁, hcallee, -⟩ := Cursor.says_append.1 hsaid
    exact h.starts hcallee
  resumes := by
    intro rewinds bound c c' hbound hsaid hbinding hfree
    obtain ⟨c₁, hcallee, hparen, hne, hlist⟩ := Cursor.says_append.1 hsaid
    have hparen : c₁.current.kind = .symbol .leftParen := hparen
    have hle := hcallee.le
    have hlt := Cursor.advance_lt hne
    have hle' := hlist.le
    have hcallee' : Grade.suffix.Resumes rewinds bound node c c₁ :=
      h.resumes hbound hcallee (by rw [hparen]; decide)
        (Cursor.unassigned_of_ne (by rw [hparen]; decide) (by rw [hparen]; rfl))
    have hlist' : (Production.sequence (bound + 1) .rightParen
        (Rule.expr.parseWithin rewinds bound)).Gives c₁.advance c'
        (·.map Node.erase = args.map Node.erase) :=
      sequence rfl hargs (by omega) hlist
    obtain ⟨rest, callee, hread, hrest, hrun⟩ := hcallee'
    obtain ⟨args', hrun', hargs'⟩ := hlist'
    obtain ⟨rest, rfl⟩ := Nat.exists_eq_add_one_of_ne_zero (Nat.ne_zero_of_lt hrest)
    refine ⟨rest, _, ?_, by omega, hrun.trans (Grade.suffixes_call hparen hrun')⟩
    simp [Node.erase, Form.erase, hread, eraseNodes_eq_map, hargs']

/-! ### Atoms -/

/-- What the atoms of the grammar read can be read at any place. -/
theorem of_atom (hstarts : ∀ {c c' : Cursor}, c.Says words c' → c.current.kind.opens .atom = true)
    (h : ∀ {rewinds : Bool} {bound : Nat} {c c' : Cursor}, c.upcoming.length ≤ bound →
      c.Says words c' → c'.current.kind.binding ≤ grade → c'.Unassigned →
      (atom (bound + 1) (Rule.parseWithin rewinds bound)).Gives c c' (·.erase = node.erase)) :
    Reads node grade words where
  starts hsaid := TokenKind.opens_of_le (Grade.le_atom grade) (hstarts hsaid)
  resumes {rewinds bound c c'} hbound hsaid hbinding hfree := by
    have hatom : Grade.atom.Resumes rewinds bound node c c' :=
      .of_gives (fun _ _ => rfl) (h hbound hsaid hbinding hfree)
    exact hatom.loosen (Grade.le_atom grade) (hsaid.le.trans hbound) (hstarts hsaid) hbinding

end Reads

end BpScript
