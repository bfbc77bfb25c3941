import BpScript.Proofs.Numeral
import BpScript.Proofs.Totality.Production

/-!
# Sources come to an end

All rules come to a definite end, from every place of the tokens of a source: by induction on the
bounds, which have to reach the last token.  How large they are beyond that makes no difference.

To say that the cursor stays on the tokens at **every** point of a reading, the reading is watched:
wherever a rule is entered or left its place is checked, and if it is not as it should be an alarm
goes off.  It never does, whatever it would do, and also where more tokens stand behind the last
one, so that there is a place to go.

Chains and signs look at the kind of a token first, and then ask for the operator it stands for.
There always is one.

* `Production.chainFromOr`, `Production.signedOr` — with a place for tokens without an operator.
* `Rule.watchWithin` — reading with an eye on the cursor; `Rule.StaysWithin` — no alarm goes off.
* `Rule.Total` — how a rule is read.
* **`tokens_parse_totally`** — the rules and the whole program, on the tokens of a source.
-/

namespace BpScript

open Parse Production

/-! ## Operators -/

/-- The tokens that a chain goes on at. -/
def Level.tokens : Level → List TokenKind
  | disjunction => [.keyword .or_]
  | conjunction => [.keyword .and_]
  | comparison => [.symbol .equalEqual, .symbol .bangEqual, .symbol .less, .symbol .greater,
      .symbol .lessEqual, .symbol .greaterEqual]
  | sum => [.symbol .plus, .symbol .minus]
  | product => [.symbol .star, .symbol .slash]

theorem Level.isSome_of_mem_tokens (level : Level) :
    ∀ kind ∈ level.tokens, (BinaryOp.ofToken? kind).isSome = true := by
  cases level <;> decide

theorem Level.operator?_eq (level : Level) (kind : TokenKind) :
    level.operator? kind = if kind ∈ level.tokens then BinaryOp.ofToken? kind else none := by
  cases kind with
  | symbol s => cases level <;> cases s <;> rfl
  | keyword k => cases level <;> cases k <;> rfl
  | _ => cases level <;> rfl

namespace Production

variable (otherwise : Parse Node)

/-- A chain that goes on at the tokens of its level.  Where one of them stands for no operator,
something else is done. -/
def chainFromOr (level : Level) (operand : Parse Node) : (bound : Nat) → Node → Parse Node
  | 0, _ => exhausted
  | bound + 1, lhs => do
    let kind ← peekKind
    if kind ∈ level.tokens then
      discard advance
      match BinaryOp.ofToken? kind with
      | none => otherwise
      | some op =>
        let rhs ← operand
        chainFromOr level operand bound (.mk (.binary lhs op rhs) (lhs.span.through rhs.span))
    else return lhs

/-- Signs in front of a power.  Where a sign stands for no operator, something else is done. -/
def signedOr (bound : Nat) (sub : Rule → Parse Node) : Parse Node := do
  let first ← peek
  if first.kind = .symbol .plus ∨ first.kind = .symbol .minus then
    discard advance
    match UnaryOp.ofToken? first.kind with
    | none => otherwise
    | some op =>
      let operand ← sub .signed
      return .mk (.unary op operand) (← spanFrom first.span)
  else power bound sub

theorem chainFromOr_eq (level : Level) (operand : Parse Node) : ∀ (bound : Nat) (lhs : Node),
    chainFromOr otherwise level operand bound lhs = chainFrom level operand bound lhs
  | 0, _ => rfl
  | bound + 1, lhs => by
    unfold chainFromOr chainFrom
    refine congrArg (peekKind >>= ·) (funext fun kind => ?_)
    rw [level.operator?_eq]
    split
    · next hkind =>
      obtain ⟨op, hop⟩ := Option.isSome_iff_exists.1 (level.isSome_of_mem_tokens kind hkind)
      simp only [hop, chainFromOr_eq level operand bound]
    · rfl

theorem signedOr_eq (bound : Nat) (sub : Rule → Parse Node) :
    signedOr otherwise bound sub = signed bound sub := by
  unfold signedOr signed
  refine congrArg (peek >>= ·) (funext fun first => ?_)
  split
  · next hkind => rcases hkind with hkind | hkind <;> simp only [hkind] <;> rfl
  · next hkind =>
    split
    · next hplus => exact absurd (.inl hplus) hkind
    · next hminus => exact absurd (.inr hminus) hkind
    · rfl

end Production

/-! ## Watching -/

namespace Rule

/-- What a rule does to the cursor: all but statement lists move it. -/
def Advances (rule : Rule) (c c' : Cursor) : Prop :=
  c.index ≤ c'.index ∧ (rule ≠ .statements → c.index < c'.index)

instance (rule : Rule) (c c' : Cursor) : Decidable (rule.Advances c c') :=
  inferInstanceAs (Decidable (_ ∧ (_ → _)))

theorem Leads.advances {tokens : List Token} {rule : Rule} {c c' : Cursor}
    (h : rule.Leads tokens c c') : rule.Advances c c' :=
  ⟨h.reaches.le, fun hne => (h.precedes hne).lt⟩

theorem Leads.of_precedes {tokens : List Token} {rule : Rule} {c c' : Cursor}
    (h : c.Precedes tokens c') : rule.Leads tokens c c' :=
  ⟨h.reaches, fun _ => h⟩

section Watch

variable (length : Nat) (alarm : Option (Parse Node))

/-- Reads with an eye on the cursor.  It has to be on one of the first `length` tokens before and
after, and to be moved as the rule does.  Without an alarm nothing is checked. -/
def watched (rule : Rule) (step : Parse Node) : Parse Node :=
  match alarm with
  | none => step
  | some alarm => do
    let before ← get
    if before.index < length then
      let node ← step
      let after ← get
      if after.index < length ∧ rule.Advances before after then return node else alarm
    else alarm

/-- Reads a rule, and keeps an eye on the cursor wherever a rule is entered or left. -/
def watchWithin : (bound : Nat) → Rule → Parse Node
  | 0, _ => exhausted
  | bound + 1, rule => rule.watched length alarm (produce true (bound + 1) (watchWithin bound) rule)

/-- Without an alarm, watching is reading. -/
theorem watchWithin_none : ∀ bound : Nat, watchWithin length none bound = parseWithin true bound
  | 0 => rfl
  | bound + 1 => by
    funext rule
    show produce true (bound + 1) (watchWithin length none bound) rule = _
    rw [watchWithin_none bound]
    rfl

end Watch

/-- Read from `c` within a bound, no rule ever starts or ends behind the first `length` tokens, and
all but statement lists move the cursor: an alarm could do whatever it wants. -/
def StaysWithin (length bound : Nat) (rule : Rule) (c : Cursor) : Prop :=
  ∀ alarm, watchWithin length (some alarm) bound rule c = parseWithin true bound rule c

-- with an eye on the first token only, the expression that it makes ends too far behind
example : ¬ Rule.expr.StaysWithin 1 3
    (Cursor.start ⟨.ident, default, "a"⟩ [⟨.eof, default, ""⟩]) :=
  fun h => absurd (congrArg Except.toBool (h exhausted)) (by decide)

end Rule

/-! ## Ends -/

variable {tokens : List Token} {c : Cursor}

namespace Parse

variable {α : Type}

/-- Read from `c`, the step gives a value and a cursor that satisfies `Q`, or an error that is not
about a number. -/
def Ends (Q : Cursor → Prop) (c : Cursor) (step : Parse α) : Prop :=
  (∃ a c', step c = .ok (a, c') ∧ Q c') ∨ ∃ e, step c = .error (.report e) ∧ e.SparesNumbers

namespace Definite

variable {behind : List Token} {T : α → Cursor → Prop} {p q : Parse α}

theorem ends {Q : Cursor → Prop} (h : Definite behind (fun _ => Q) c p q) : p.Ends Q c := by
  cases h with
  | read hp _ h => exact .inl ⟨_, _, hp, h⟩
  | failed hp _ h => exact .inr ⟨_, hp, h⟩

/-- What stands behind the last token makes no difference, and is left alone. -/
theorem run_eq (h : Definite behind T c p q) :
    q (c.followedBy behind) = (p c).map (Prod.map id (Cursor.followedBy behind)) := by
  cases h with
  | read hp hq _ => rw [hp, hq]; rfl
  | failed hp hq _ => rw [hp, hq]; rfl

/-- No alarm goes off at the start and the end of a rule that moves the cursor as it should. -/
theorem watched {rule : Rule} {p q : Parse Node} (alarm : Option (Parse Node)) (hc : c.On tokens)
    (h : Definite behind (fun _ => rule.Leads tokens c) c p q) :
    Definite behind (fun _ => rule.Leads tokens c) c p (rule.watched tokens.length alarm q) := by
  cases alarm with
  | none => exact h
  | some alarm =>
    have hbefore : (c.followedBy behind).index < tokens.length := hc.index_lt
    have hstart : rule.watched tokens.length (some alarm) q (c.followedBy behind) =
        (do
          let node ← q
          let after ← get
          if after.index < tokens.length ∧ rule.Advances (c.followedBy behind) after then
            return node
          else alarm : Parse Node) (c.followedBy behind) :=
      congrFun (if_pos hbefore) _
    cases h with
    | @read node c' hp hq h =>
      have hafter : (c'.followedBy behind).index < tokens.length ∧
          rule.Advances (c.followedBy behind) (c'.followedBy behind) :=
        ⟨h.reaches.on.index_lt, h.advances⟩
      refine .read hp ?_ h
      rw [hstart, run_bind_ok hq]
      exact congrFun (if_pos hafter) _
    | failed hp hq he =>
      refine .failed hp ?_ he
      rw [hstart, run_bind_error hq]

end Definite
end Parse

/-! ## Rules -/

namespace Rule

variable (alarm : Option (Parse Node)) (behind : List Token)

theorem produce_definite {f g : Rule → Parse Node} {n m : Nat}
    (hsub : NestsDefinite tokens behind c f g) (hc : c.Reaches tokens c)
    (hroom : tokens.length ≤ c.index + min n m) (rule : Rule) :
    Definite behind (fun _ => rule.Leads tokens c) c (produce true n f rule)
      (rule.watched tokens.length alarm (produce true m g rule)) := by
  refine Definite.watched alarm hc.on ?_
  cases rule with
  | expr => exact (expr_progresses hsub hroom hc).weaken fun _ _ h => .of_precedes h
  | statement => exact (statement_progresses hsub hroom hc).weaken fun _ _ h => .of_precedes h
  | statements => exact (statements_definite hsub hc hroom).weaken fun _ _ h => ⟨h, absurd rfl⟩
  | negation => exact (negation_progresses hsub hroom hc).weaken fun _ _ h => .of_precedes h
  | signed => exact (signed_progresses hsub hroom hc).weaken fun _ _ h => .of_precedes h

/-- All rules, by induction on the bounds: a rule nests others only behind a token it has read. -/
theorem parseWithin_definite : ∀ {n m : Nat} {c : Cursor}, c.Reaches tokens c →
    tokens.length ≤ c.index + min n m → ∀ rule : Rule,
    Definite behind (fun _ => rule.Leads tokens c) c (parseWithin true n rule)
      (watchWithin tokens.length alarm m rule)
  | 0, _, _, hc, hroom => absurd rfl (hc.on.bounds_ne_zero hroom).1
  | _, 0, _, hc, hroom => absurd rfl (hc.on.bounds_ne_zero hroom).2
  | n + 1, m + 1, c, hc, hroom => by
    refine produce_definite alarm behind (fun rule c' hlater => ?_) hc hroom
    have hlt := hlater.lt
    exact parseWithin_definite hlater.refl (by omega) rule

/-- The rules that are nested behind `c` have a token less in front of them. -/
theorem nests_definite {n m : Nat} (hroom : tokens.length ≤ c.index + 1 + min n m) :
    NestsDefinite tokens behind c (parseWithin true n) (watchWithin tokens.length alarm m) := by
  intro rule c' hlater
  have hlt := hlater.lt
  exact parseWithin_definite alarm behind hlater.refl (by omega) rule

/-- A rule that is read with the bound it supplies itself, beside one that is watched. -/
theorem parse_definite (hc : c.Reaches tokens c) {bound : Nat}
    (hbound : tokens.length ≤ c.index + bound) (rule : Rule) :
    Definite behind (fun _ => rule.Leads tokens c) c (rule.parse true)
      (watchWithin tokens.length alarm bound rule) := by
  have hlength := hc.on.length_upcoming
  have hwithin := parseWithin_definite alarm behind hc
    (show _ ≤ _ + min (c.upcoming.length + 2) bound by omega) rule
  cases hwithin with
  | read hp hq h => exact .read hp hq h
  | failed hp hq h => exact .failed hp hq h

/-- How a rule is read from a cursor on `tokens`.  It comes to an end, on the tokens, and behind a
token unless it is a statement list.  Every bound that reaches the last token gives the same, and so
does every list that goes on behind it; the cursor does not go there. -/
structure Total (tokens : List Token) (rule : Rule) (c : Cursor) : Prop where
  ends : (rule.parse true).Ends (fun c' => c'.On tokens ∧ rule.Advances c c') c
  confined : ∀ (behind : List Token) (bound : Nat), tokens.length ≤ c.index + bound →
    parseWithin true bound rule (c.followedBy behind) =
      (rule.parse true c).map (Prod.map id (Cursor.followedBy behind))
  stays : ∀ (behind : List Token) (bound : Nat), tokens.length ≤ c.index + bound →
    rule.StaysWithin tokens.length bound (c.followedBy behind)

theorem total (hc : c.Reaches tokens c) (rule : Rule) : rule.Total tokens c where
  ends := by
    have hrule := parse_definite none [] hc (Nat.le_add_left tokens.length c.index) rule
    exact (hrule.weaken fun _ _ h => ⟨h.reaches.on, h.advances⟩).ends
  confined behind bound hbound := by
    rw [← watchWithin_none tokens.length bound]
    exact (parse_definite none behind hc hbound rule).run_eq
  stays behind bound hbound alarm := by
    rw [← watchWithin_none tokens.length bound, (parse_definite none behind hc hbound rule).run_eq,
      (parse_definite (some alarm) behind hc hbound rule).run_eq]

/-- A program ends in front of `eof`. -/
theorem program_definite (hc : c.Reaches tokens c) :
    Definite behind (fun _ c' => c'.On tokens ∧ c'.current.kind = .eof) c (program true)
      (program true) := by
  have hroot : Definite behind (fun _ => c.Reaches tokens) c (Rule.statements.parse true)
      (Rule.statements.parse true) := by
    have hlength := hc.on.length_upcoming
    have hlonger : (c.followedBy behind).upcoming.length = c.upcoming.length + behind.length :=
      List.length_append
    refine Definite.bind_get ?_
    rw [← watchWithin_none tokens.length ((c.followedBy behind).upcoming.length + 2)]
    exact (parseWithin_definite none behind hc (by omega) .statements).weaken fun _ _ h => h.reaches
  refine hroot.bind fun root c₁ h₁ => Definite.bind_peekKind ?_
  split
  · next heof => exact Definite.pure ⟨h₁.on, heof⟩
  · exact Definite.failHere h₁.on (by simp)

/-- An entry of an object literal is read behind at least one token. -/
theorem entry_precedes {bound : Nat} {entry : Ident × Node} {c' : Cursor} (hc : c.Reaches tokens c)
    (hbound : tokens.length ≤ c.index + bound)
    (hrun : Production.entry (parseWithin true bound) c = .ok (entry, c')) :
    c.Precedes tokens c' := by
  have hroom : tokens.length ≤ c.index + 1 + min bound bound := by omega
  cases entry_definite (nests_definite none [] hroom) hc with
  | read hp _ h =>
    cases hrun.symm.trans hp
    exact h
  | failed hp _ _ => cases hrun.symm.trans hp

end Rule

/-! ## Sources -/

/-- The tokens of a source can be read. -/
theorem readable_of_tokenize {source : Source} (h : tokenize source = .ok tokens) :
    Readable tokens :=
  ⟨Scanner.ends_of_steps _ h, fun _ htoken hkind => exists_number_of_tokenize h htoken hkind⟩

theorem Cursor.on_start (first : Token) (rest : List Token) :
    (Cursor.start first rest).On (first :: rest) :=
  ⟨rfl, rfl, ⟨first, rfl, rfl⟩, nofun⟩

/-- **Reading the tokens of a source always comes to an end.**  The cursor starts on the tokens, and
from wherever it stands on them

* there is a next token, unless the current one is `eof`;
* every rule comes to a definite end on them.  Only a statement list may end where it started.  What
  would stand behind `eof` makes no difference, and no rule starts or ends there;
* the same goes for a whole program, which ends in front of `eof`;
* an entry of an object is read behind at least one token, as the expressions in a sequence are.

No error is ever about a number, since the tokens of numbers hold some.  What would be done at a
chain or a sign without an operator is never done. -/
theorem tokens_parse_totally {source : Source} {tokens : List Token}
    (h : tokenize source = .ok tokens) :
    Readable tokens ∧
    (∃ first rest, tokens = first :: rest ∧ (Cursor.start first rest).On tokens) ∧
    (∀ c : Cursor, c.On tokens →
      (c.current.kind ≠ .eof →
        ∃ next rest, c.upcoming = next :: rest ∧ tokens[c.index + 1]? = some next) ∧
      (∀ rule : Rule, rule.Total tokens c) ∧
      (Rule.program true).Ends (fun c' => c'.On tokens ∧ c'.current.kind = .eof) c ∧
      (∀ behind, Rule.program true (c.followedBy behind) =
        (Rule.program true c).map (Prod.map id (Cursor.followedBy behind))) ∧
      ∀ (bound : Nat) (entry : Ident × Node) (c' : Cursor), tokens.length ≤ c.index + bound →
        Production.entry (Rule.parseWithin true bound) c = .ok (entry, c') →
          c'.On tokens ∧ c.index < c'.index) ∧
    ∀ otherwise : Parse Node, chainFromOr otherwise = chainFrom ∧ signedOr otherwise = signed := by
  have htokens := readable_of_tokenize h
  refine ⟨htokens, ?_, fun c hon => ?_, fun otherwise => ?_⟩
  · obtain ⟨before, last, hends, -⟩ := htokens.ends
    cases tokens with
    | nil => exact absurd hends.symm (List.append_ne_nil_of_right_ne_nil _ (by simp))
    | cons first rest => exact ⟨first, rest, rfl, Cursor.on_start first rest⟩
  · have hc : c.Reaches tokens c := ⟨htokens, hon, Nat.le_refl _⟩
    refine ⟨hon.exists_next htokens, Rule.total hc, (Rule.program_definite [] hc).ends,
      fun behind => (Rule.program_definite behind hc).run_eq, fun bound entry c' hbound hrun => ?_⟩
    have hlater := Rule.entry_precedes hc hbound hrun
    exact ⟨hlater.on, hlater.lt⟩
  · refine ⟨?_, ?_⟩
    · funext level operand bound lhs
      exact chainFromOr_eq otherwise level operand bound lhs
    · funext bound sub
      exact signedOr_eq otherwise bound sub

/-- In particular, the tokens of a source that breaks off within a function. -/
theorem broken_function_parses_totally : ∃ tokens first rest,
    tokenize ⟨"main", "func f(a?) => [1., a.b\n"⟩ = .ok tokens ∧ tokens = first :: rest ∧
      (Cursor.start first rest).On tokens ∧ Readable tokens ∧
      (∀ rule : Rule, rule.Total tokens (Cursor.start first rest)) ∧
      (Rule.program true).Ends (fun c => c.On tokens ∧ c.current.kind = .eof)
        (Cursor.start first rest) := by
  have hread : (tokenize ⟨"main", "func f(a?) => [1., a.b\n"⟩).toOption.isSome = true := by cbv
  cases htokens : tokenize ⟨"main", "func f(a?) => [1., a.b\n"⟩ with
  | error e =>
    rw [htokens] at hread
    cases hread
  | ok tokens =>
    obtain ⟨hreadable, ⟨first, rest, hstart, hon⟩, htotal, -⟩ := tokens_parse_totally htokens
    obtain ⟨-, hrules, hprogram, -⟩ := htotal _ hon
    exact ⟨tokens, first, rest, rfl, hstart, hon, hreadable, hrules, hprogram⟩

end BpScript
