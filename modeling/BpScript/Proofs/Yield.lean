import BpScript.Proofs.Grammar.Soundness
import BpScript.Proofs.Tiling
import BpScript.Proofs.Word

/-!
# Reading loses and repeats nothing

A tree lists its literals, names and operators in the order they are written in: its **yield**.
The yield of the tree of a program is the program's tokens, without those that only separate and
bracket.

* `Form.contents` — what a node consists of, in source order: words, names and other nodes.  The
  default of a `switch` may stand anywhere among the cases; where it stands is told by its span.
* `Node.yield` — all the words of a tree.
* `Cursor.Passes` — the words between two cursors.
* `Derives.read` — what the grammar derives passes over its own words, rule by rule.
* **`yield_fits_tokens`** — programs.
-/

namespace BpScript

open Production

/-! ## The parts of a node -/

/-- What a node consists of. -/
inductive Part where
  | word (word : Word)
  | name (ident : Ident)
  | key (ident : Ident)
  | node (node : Node)

namespace Clause

/-- A case of a `switch`. -/
def ofCase (case : Node × Node) : Clause :=
  (some case.1, case.2)

/-- The cases of a `switch` with its default, which stands in front of the first case that starts
behind it. -/
def insertDefault (default : Node) : (cases : List (Node × Node)) → List Clause
  | [] => [(none, default)]
  | case :: cases =>
    if default.span.start.index < case.1.span.start.index then
      (none, default) :: (case :: cases).map ofCase
    else ofCase case :: insertDefault default cases

/-- The parts of a `switch` in source order. -/
def inOrder (cases : List (Node × Node)) : (otherwise : Option Node) → List Clause
  | none => cases.map ofCase
  | some default => insertDefault default cases

/-- The nodes of one part of a `switch`. -/
@[simp] def contents (clause : Clause) : List Part :=
  clause.1.toList.map .node ++ [.node clause.2]

end Clause

/-- The parts of a node, in source order. -/
@[simp] def Form.contents : Form → List Part
  | .number value => [.word (.number value)]
  | .text value => [.word (.text value)]
  | .boolean value => [.word (.keyword (if value then .true_ else .false_))]
  | .null => [.word (.keyword .null_)]
  | .list items => items.map .node
  | .object entries => entries.flatMap fun entry => [.key entry.1, .node entry.2]
  | .access ident => [.name ident]
  | .member target name => [.node target, .name name]
  | .assign ident op value _ _ => [.name ident, .word op.word, .node value]
  | .memberAssign path op value => path.map .name ++ [.word op.word, .node value]
  | .binary lhs op rhs => [.node lhs, .word op.word, .node rhs]
  | .unary op operand => [.word op.word, .node operand]
  | .ifElse arms otherwise =>
    arms.flatMap (fun arm => [.node arm.1, .node arm.2.node]) ++
      otherwise.toList.map fun body => .node body.node
  | .switch subject cases otherwise =>
    .node subject :: (Clause.inOrder cases otherwise).flatMap Clause.contents
  | .forCount ident first last step body =>
    [.name ident, .word (.symbol .equal), .node first, .node last] ++ step.toList.map .node ++
      [.node body.node]
  | .forList ident container body => [.name ident, .node container, .node body.node]
  | .forObject key value container body =>
    [.name key, .name value, .node container, .node body.node]
  | .whileLoop condition body => [.node condition, .node body.node]
  | .function (.mk name params body _ _) =>
    name.toList.map .name ++ params.map (fun param => .name param.ident) ++ [.node body]
  | .call callee args => .node callee :: args.map .node
  | .importAs lib name => [.node lib, .name name]
  | .returnValue value => value.toList.map .node
  | .breakLoop => []
  | .continueLoop => []
  | .block statements => statements.map .node

theorem Clause.mem_insertDefault {clause : Clause} {default : Node} {cases : List (Node × Node)} :
    clause ∈ insertDefault default cases ↔
      (∃ case ∈ cases, clause = ofCase case) ∨ clause = (none, default) := by
  induction cases with
  | nil => simp [insertDefault]
  | cons case cases ih =>
    rw [insertDefault]
    split
    · simp only [List.mem_cons, List.mem_map, exists_eq_or_imp, eq_comm (b := clause)]
      grind
    · simp only [List.mem_cons, ih, exists_eq_or_imp]
      grind

/-- The parts of a `switch` are its cases and its default. -/
theorem Clause.mem_inOrder {clause : Clause} {cases : List (Node × Node)}
    {otherwise : Option Node} :
    clause ∈ inOrder cases otherwise ↔ (∃ case ∈ cases, clause = ofCase case) ∨
      ∃ default, otherwise = some default ∧ clause = (none, default) := by
  cases otherwise with
  | none => simp [inOrder, eq_comm]
  | some default => simp [inOrder, mem_insertDefault]

/-! A node is larger than its parts, so a tree can be walked through from part to part. -/

theorem Body.sizeOf_node_lt (body : Body) : sizeOf body.node < sizeOf body := by
  cases body
  simp [node]

theorem sizeOf_lt_of_mem_pairs {α β : Type} [SizeOf α] [SizeOf β] {pair : α × β}
    {pairs : List (α × β)} (h : pair ∈ pairs) :
    sizeOf pair.1 < sizeOf pairs ∧ sizeOf pair.2 < sizeOf pairs := by
  have hlt := List.sizeOf_lt_of_mem h
  obtain ⟨a, b⟩ := pair
  simp only [Prod.mk.sizeOf_spec] at hlt ⊢
  omega

theorem Clause.sizeOf_lt_of_mem_inOrder {clause : Clause} {cases : List (Node × Node)}
    {otherwise : Option Node} {node : Node} (hclause : clause ∈ inOrder cases otherwise)
    (hnode : .node node ∈ clause.contents) : sizeOf node < sizeOf cases + sizeOf otherwise := by
  rcases mem_inOrder.1 hclause with ⟨case, hcase, rfl⟩ | ⟨default, rfl, rfl⟩
  · have hlt := sizeOf_lt_of_mem_pairs hcase
    simp only [contents, ofCase, Option.toList_some, List.map_cons, List.map_nil, List.cons_append,
      List.nil_append, List.mem_cons, Part.node.injEq, List.not_mem_nil, or_false] at hnode
    rcases hnode with rfl | rfl
    · omega
    · omega
  · obtain rfl : node = default := by simpa [contents] using hnode
    simp
    omega

theorem Form.sizeOf_lt_of_mem_contents {form : Form} {node : Node}
    (h : .node node ∈ form.contents) :
    sizeOf node < sizeOf form := by
  cases form
  case function definition =>
    cases definition
    simp [Form.contents] at h
    subst h
    simp
    omega
  case switch subject cases otherwise =>
    simp only [Form.contents, List.mem_cons, Part.node.injEq, List.mem_flatMap] at h
    rcases h with rfl | ⟨clause, hclause, hnode⟩
    · simp
      omega
    · have := Clause.sizeOf_lt_of_mem_inOrder hclause hnode
      simp
      omega
  all_goals simp only [Form.contents] at h
  all_goals simp at h ⊢
  all_goals grind [→ List.sizeOf_lt_of_mem, → sizeOf_lt_of_mem_pairs, Body.sizeOf_node_lt,
    Option.some.sizeOf_spec]

/-! ## Yields -/

/-- The literals, names and operators of a tree, in source order. -/
def Node.yield : Node → List Word
  | .mk form _ => form.contents.attach.flatMap fun
    | ⟨.word word, _⟩ => [word]
    | ⟨.name ident, _⟩ => [.ident ident.name]
    | ⟨.key ident, _⟩ => [.key ident.name]
    | ⟨.node node, _⟩ => node.yield
termination_by node => sizeOf node
decreasing_by
  rename_i hmem
  have hlt := Form.sizeOf_lt_of_mem_contents hmem
  simp only [Node.mk.sizeOf_spec]
  omega

/-- The words of one part. -/
@[simp] def Part.yield : Part → List Word
  | .word w => [w]
  | .name ident => [.ident ident.name]
  | .key ident => [.key ident.name]
  | .node n => n.yield

@[simp] theorem Node.yield_mk (form : Form) (span : Span) :
    (mk form span).yield = form.contents.flatMap Part.yield := by
  rw [yield]
  calc
    _ = form.contents.attach.flatMap (fun part => part.1.yield) := by
      congr
      funext ⟨part, hpart⟩
      cases part <;> rfl
    _ = (form.contents.attach.map Subtype.val).flatMap Part.yield := by
      rw [List.flatMap_map]
    _ = form.contents.flatMap Part.yield := by
      rw [List.attach_map_subtype_val]

@[simp] theorem Node.yield_withSpan (node : Node) (span : Span) :
    (node.withSpan span).yield = node.yield := by
  cases node
  rw [withSpan, yield_mk, yield_mk, form_mk]

mutual

/-- The parts of a phrase, in source order. -/
@[simp] def Phrase.contents : Phrase → List Part
  | .node _ n => [.node n]
  | .further nodes => nodes.map .node
  | .segments path => path.map .name
  | .sequence _ phrases => Phrase.contentsOf phrases
  | .items _ phrases => Phrase.contentsOf phrases
  | .entry pair => [.key pair.1, .node pair.2]
  | .body b => [.node b.node]
  | .arm pair => [.node pair.1, .node pair.2.node]
  | .arms pairs otherwise =>
    pairs.flatMap (fun pair => [.node pair.1, .node pair.2.node]) ++
      otherwise.toList.map fun b => .node b.node
  | .functionName ident => ident.toList.map .name
  | .param p => [.name p.ident]
  | .params _ ps => ps.map (.name ·.ident)
  | .paramList ps => ps.map (.name ·.ident)
  | .functionBody n _ => [.node n]
  | .clauses cs => cs.flatMap Clause.contents

/-- The parts of phrases that follow each other. -/
@[simp] def Phrase.contentsOf : List Phrase → List Part
  | [] => []
  | phrase :: phrases => phrase.contents ++ Phrase.contentsOf phrases

end

namespace Phrase

@[simp] theorem contentsOf_map_node (category : Category) : ∀ nodes : List Node,
    contentsOf (nodes.map (.node category)) = nodes.map .node
  | [] => rfl
  | first :: nodes => congrArg (Part.node first :: ·) (contentsOf_map_node category nodes)

@[simp] theorem contentsOf_map_entry : ∀ entries : List (Ident × Node),
    contentsOf (entries.map .entry) = entries.flatMap fun entry => [.key entry.1, .node entry.2]
  | [] => rfl
  | first :: entries =>
    congrArg ([Part.key first.1, Part.node first.2] ++ ·) (contentsOf_map_entry entries)

/-- The words of a phrase. -/
@[simp] def yield (phrase : Phrase) : List Word :=
  phrase.contents.flatMap Part.yield

end Phrase

/-! ## Cursors -/

/-- Tokens in the order of the text, of which the last one and no other is `eof`. -/
structure Orderly (tokens : List Token) : Prop where
  ascending : tokens.Pairwise fun s t => s.span.start.index < t.span.start.index
  closed : ∃ (front : List Token) (last : Token), tokens = front ++ [last] ∧
    (∀ t ∈ front, t.kind ≠ .eof) ∧ last.kind = .eof

theorem orderly_of_tokenize {source : Source} {tokens : List Token}
    (h : tokenize source = .ok tokens) : Orderly tokens := by
  obtain ⟨tiles, rfl, -, hcover⟩ := exists_cover h
  obtain ⟨front, last, htokens, hfront, hlast, -⟩ := hcover.exists_last
  exact ⟨hcover.starts_ascend, front, last, htokens, hfront, hlast⟩

/-- Behind a token that is not `eof` there is another one. -/
theorem Orderly.tail {token : Token} {rest : List Token} (h : Orderly (token :: rest))
    (hne : token.kind ≠ .eof) : rest ≠ [] ∧ Orderly rest := by
  obtain ⟨front, last, htokens, hfront, hlast⟩ := h.closed
  cases front with
  | nil =>
    cases htokens
    exact absurd hlast hne
  | cons first front =>
    cases htokens
    exact ⟨by simp, h.ascending.of_cons, front, last, rfl,
      fun t ht => hfront t (List.mem_cons_of_mem _ ht), hlast⟩

theorem Orderly.eq_nil {token : Token} {rest : List Token} (h : Orderly (token :: rest))
    (heof : token.kind = .eof) : rest = [] := by
  obtain ⟨front, last, htokens, hfront, -⟩ := h.closed
  cases front with
  | nil =>
    cases htokens
    rfl
  | cons first front =>
    cases htokens
    exact absurd heof (hfront token List.mem_cons_self)

namespace Cursor

/-- The tokens from the current one on. -/
def tokens (c : Cursor) : List Token :=
  c.current :: c.upcoming

/-- Where the current token starts. -/
def here (c : Cursor) : Nat :=
  c.current.span.start.index

/-- Between `c` and `c'` stand the tokens that say `words`, and others that leave no trace. -/
def Passes (c : Cursor) (words : List Word) (c' : Cursor) : Prop :=
  Orderly c.tokens → Orderly c'.tokens ∧ ∃ front : List Token, c.tokens = front ++ c'.tokens ∧
    List.Forall₂ Word.Fits words (front.filter (·.kind.isContent))

variable {c c₁ c' : Cursor} {words words' : List Word} {kind : TokenKind}

theorem Passes.refl (c : Cursor) : c.Passes [] c :=
  fun h => ⟨h, [], rfl, .nil⟩

theorem Passes.append (h : c.Passes words c₁) (h' : c₁.Passes words' c') :
    c.Passes (words ++ words') c' := by
  intro hc
  obtain ⟨hc₁, front, hfront, hwords⟩ := h hc
  obtain ⟨hc', front', hfront', hwords'⟩ := h' hc₁
  refine ⟨hc', front ++ front', by rw [hfront, hfront', List.append_assoc], ?_⟩
  rw [List.filter_append]
  exact List.rel_append hwords hwords'

theorem tokens_advance (h : Orderly c.tokens) (hne : c.current.kind ≠ .eof) :
    c.tokens = c.current :: c.advance.tokens ∧ Orderly c.advance.tokens := by
  obtain ⟨hrest, horderly⟩ := h.tail hne
  rcases c with ⟨index, current, _ | ⟨next, rest⟩, lastStop, deferred⟩
  · exact absurd rfl hrest
  · exact ⟨rfl, horderly⟩

/-- A token that leaves no trace. -/
theorem Step.skip (h : c.Step kind c₁) (hkind : kind.isContent = false ∧ kind ≠ .eof)
    (hrest : c₁.Passes words c') : c.Passes words c' := by
  intro hc
  obtain ⟨htokens, hadvance⟩ := tokens_advance hc (h.kind.trans_ne hkind.2)
  rw [← h.next] at htokens hadvance
  obtain ⟨hc', front, hfront, hwords⟩ := hrest hadvance
  refine ⟨hc', c.current :: front, by rw [htokens, hfront]; rfl, ?_⟩
  rw [List.filter_cons_of_neg (by rw [h.kind, hkind.1]; decide)]
  exact hwords

/-- A token that says a word. -/
theorem Step.say {word : Word} (h : c.Step kind c₁) (hkind : kind.isContent = true)
    (hword : word.Fits c.current) (hrest : c₁.Passes words c') :
    c.Passes (word :: words) c' := by
  intro hc
  have hne : kind ≠ .eof := by
    rintro rfl
    cases hkind
  obtain ⟨htokens, hadvance⟩ := tokens_advance hc (h.kind.trans_ne hne)
  rw [← h.next] at htokens hadvance
  obtain ⟨hc', front, hfront, hwords⟩ := hrest hadvance
  refine ⟨hc', c.current :: front, by rw [htokens, hfront]; rfl, ?_⟩
  rw [List.filter_cons_of_pos (by rw [h.kind, hkind])]
  exact .cons hword hwords

theorem isContent_of_isOperator {kind : TokenKind} (h : kind.isOperator = true) :
    kind.isContent = true := by
  unfold TokenKind.isContent
  split
  all_goals first | rfl | exact h

/-- An operator between two operands. -/
theorem Passes.sayBinary {op : BinaryOp} (hop : BinaryOp.ofToken? c.current.kind = some op)
    (hrest : c.advance.Passes words c') : c.Passes (op.word :: words) c' := by
  have hstep : c.Step c.current.kind c.advance := ⟨rfl, rfl⟩
  have hcontent := isContent_of_isOperator (show c.current.kind.isOperator = true by
    simp [TokenKind.isOperator, hop])
  exact hstep.say hcontent (BinaryOp.fits_word_iff.2 hop) hrest

/-- The operator of an assignment. -/
theorem Passes.sayAssign {op : AssignOp} (hop : AssignOp.ofToken? c.current.kind = some op)
    (hrest : c.advance.Passes words c') : c.Passes (op.word :: words) c' := by
  have hstep : c.Step c.current.kind c.advance := ⟨rfl, rfl⟩
  have hcontent := isContent_of_isOperator (show c.current.kind.isOperator = true by
    simp [TokenKind.isOperator, hop])
  exact hstep.say hcontent (AssignOp.fits_word_iff.2 hop) hrest

/-- The bracket that closes a sequence. -/
theorem Step.skipClosing {close : Symbol} (h : c.Step (.symbol close) c')
    (hclose : close.isClosing = true) : c.Passes [] c' := by
  refine h.skip ?_ (.refl c')
  revert hclose
  cases close <;> decide

/-- A name. -/
theorem Step.sayName (h : c.Step .ident c₁) (hrest : c₁.Passes words c') :
    c.Passes (.ident (identOf c.current).name :: words) c' :=
  h.say rfl ⟨h.kind, rfl⟩ hrest

theorem endsInEof_of_orderly (h : Orderly c.tokens) : c.EndsInEof := by
  obtain ⟨front, last, htokens, -, hlast⟩ := h.closed
  show (c.tokens.getLast _).kind = .eof
  simp only [htokens, List.getLast_append, List.getLast_singleton]
  exact hlast

/-- Newlines are skipped one by one. -/
theorem behindNewlines_induction {P : Cursor → Cursor → Prop} (here : ∀ c, P c c)
    (step : ∀ {c c'}, c.Step .newline c.advance → P c.advance c' → P c c') :
    ∀ {c : Cursor}, Orderly c.tokens → P c c.behindNewlines := by
  intro c hc
  induction c using newlineInduction with
  | other c hkind =>
    rw [behindNewlines_of_ne hkind]
    exact here c
  | last c hkind hnil =>
    exact absurd hnil ((endsInEof_of_orderly hc).upcoming_ne_nil (hkind.trans_ne (by decide)))
  | newline c hkind hne ih =>
    rw [behindNewlines_of_newline hkind hne]
    exact step ⟨hkind, rfl⟩ (ih (tokens_advance hc (hkind.trans_ne (by decide))).2)

theorem passes_behindNewlines : c.Passes [] c.behindNewlines := fun hc =>
  behindNewlines_induction (P := (·.Passes [] ·)) .refl (fun h => h.skip (by decide)) hc hc

/-- The current token of a later cursor starts later. -/
theorem Passes.here_le (h : c.Passes words c') (hc : Orderly c.tokens) : c.here ≤ c'.here := by
  obtain ⟨-, front, hfront, -⟩ := h hc
  have hascending := hc.ascending
  cases front with
  | nil => exact Nat.le_of_eq (congrArg (·.span.start.index) (List.cons.inj hfront).1)
  | cons first front =>
    rw [hfront] at hascending
    obtain ⟨hcurrent, -⟩ := List.cons.inj hfront
    rw [here, hcurrent]
    exact Nat.le_of_lt (List.rel_of_pairwise_cons hascending (by simp [tokens]))

theorem Step.here_lt (h : c.Step kind c₁) (hne : kind ≠ .eof) (hc : Orderly c.tokens) :
    c.here < c₁.here := by
  obtain ⟨htokens, -⟩ := tokens_advance hc (h.kind.trans_ne hne)
  have hascending := hc.ascending
  rw [htokens, ← h.next] at hascending
  exact List.rel_of_pairwise_cons hascending List.mem_cons_self

end Cursor

/-! ## The parts of a `switch` in source order -/

namespace Clause

/-- Where a part of a `switch` is told to stand. -/
def place (clause : Clause) : Nat :=
  (clause.1.getD clause.2).span.start.index

theorem map_ofCase_cases : ∀ {clauses : List Clause}, defaults clauses = [] →
    (cases clauses).map ofCase = clauses
  | [], _ => rfl
  | (some _, _) :: _, h => congrArg (_ :: ·) (map_ofCase_cases h)
  | (none, _) :: _, h => by cases h

/-- Where each part starts behind the one before it, the default is put back in its place. -/
theorem insertDefault_cases {default : Node} : ∀ {clauses : List Clause},
    clauses.Pairwise (fun p q => p.place < q.place) → defaults clauses = [default] →
    insertDefault default (cases clauses) = clauses
  | [], _, h => by cases h
  | (none, body) :: further, hplaces, h => by
    obtain ⟨rfl, hnone⟩ : body = default ∧ defaults further = [] := List.cons.inj h
    have hfurther := map_ofCase_cases hnone
    show insertDefault body (cases further) = _
    cases hcases : cases further with
    | nil =>
      rw [hcases] at hfurther
      rw [insertDefault, ← hfurther]
      rfl
    | cons case more =>
      rw [hcases] at hfurther
      have hfirst : ofCase case ∈ further := by
        rw [← hfurther]
        exact List.mem_cons_self
      have hlt : body.span.start.index < case.1.span.start.index :=
        List.rel_of_pairwise_cons hplaces hfirst
      rw [insertDefault, if_pos hlt, hfurther]
  | (some pattern, body) :: further, hplaces, h => by
    have hdefault : (none, default) ∈ further := by
      have hmem : default ∈ defaults further := by
        rw [show defaults further = [default] from h]
        simp
      obtain ⟨⟨pattern?, body'⟩, hclause, rfl⟩ := List.mem_map.1 hmem
      obtain ⟨hmem', hnone⟩ := List.mem_filter.1 hclause
      cases Option.isNone_iff_eq_none.1 hnone
      exact hmem'
    have hlt : pattern.span.start.index < default.span.start.index :=
      List.rel_of_pairwise_cons hplaces hdefault
    show insertDefault default ((pattern, body) :: cases further) = _
    rw [insertDefault, if_neg (by simp only; omega), insertDefault_cases hplaces.of_cons h]
    rfl

theorem inOrder_cases {clauses : List Clause} {otherwise : Option Node}
    (hplaces : clauses.Pairwise fun p q => p.place < q.place)
    (hdefaults : defaults clauses = otherwise.toList) :
    inOrder (cases clauses) otherwise = clauses := by
  cases otherwise with
  | none => exact map_ofCase_cases hdefaults
  | some default => exact insertDefault_cases hplaces hdefaults

end Clause

/-! ## Phrases -/

/-- Where a phrase is told to stand: a node starts between the cursors, and the parts of a `switch`
start one behind the other. -/
def Phrase.Placed : Phrase → Cursor → Cursor → Prop
  | .node _ n, c, c' => c.here ≤ n.span.start.index ∧ n.span.start.index ≤ c'.here
  | .clauses cs, c, _ =>
    (∀ clause ∈ cs, c.here < clause.place) ∧ cs.Pairwise fun p q => p.place < q.place
  | _, _, _ => True

/-- A part of a `switch` in front of others. -/
theorem Phrase.Placed.cons {clause : Clause} {further : List Clause} {c c₁ c' : Cursor}
    (hlt : c.here < clause.place) (hle : clause.place ≤ c₁.here)
    (h : (Phrase.clauses further).Placed c₁ c') :
    (Phrase.clauses (clause :: further)).Placed c c' := by
  have hbehind : ∀ other ∈ further, clause.place < other.place :=
    fun other hother => hle.trans_lt (h.1 other hother)
  refine ⟨fun other hother => ?_, List.pairwise_cons.2 ⟨hbehind, h.2⟩⟩
  rcases List.mem_cons.1 hother with rfl | hother
  · exact hlt
  · exact hlt.trans (hbehind other hother)

/-- The tokens between two cursors are those of a phrase. -/
structure Phrase.Covers (phrase : Phrase) (c c' : Cursor) : Prop where
  passes : c.Passes phrase.yield c'
  placed : Orderly c.tokens → phrase.Placed c c'

namespace Phrase.Covers

variable {c c₁ c' : Cursor} {category category' : Category} {node first : Node}

/-- A node that starts with the current token. -/
theorem ofHere (h : c.Passes node.yield c') (hstart : node.span.start = c.current.span.start) :
    (Phrase.node category node).Covers c c' where
  passes := by simpa [Phrase.yield, Phrase.contents, Part.yield] using h
  placed hc := by
    show c.here ≤ node.span.start.index ∧ node.span.start.index ≤ c'.here
    rw [hstart]
    exact ⟨Nat.le_refl _, h.here_le hc⟩

/-- A node that starts with another one. -/
theorem ofFirst {words : List Word} (hfirst : (Phrase.node category' first).Covers c c₁)
    (hrest : c₁.Passes words c') (hyield : node.yield = first.yield ++ words)
    (hstart : node.span.start = first.span.start) : (Phrase.node category node).Covers c c' where
  passes := by
    have hpasses := hfirst.passes.append hrest
    simpa [Phrase.yield, Phrase.contents, Part.yield, hyield] using hpasses
  placed hc := by
    obtain ⟨hlower, hupper⟩ := hfirst.placed hc
    have hle := hrest.here_le (hfirst.passes hc).1
    show c.here ≤ node.span.start.index ∧ node.span.start.index ≤ c'.here
    rw [hstart]
    exact ⟨hlower, hupper.trans hle⟩

/-- A node in front of tokens that leave no trace. -/
theorem followed (hnode : (Phrase.node category node).Covers c c₁) (h : c₁.Passes [] c') :
    (Phrase.node category node).Covers c c' :=
  .ofFirst hnode h (by simp) rfl

/-- A node behind tokens that leave no trace. -/
theorem ofInner (h : c.Passes [] c₁) (hnode : (Phrase.node category' node).Covers c₁ c') :
    (Phrase.node category node).Covers c c' where
  passes := h.append hnode.passes
  placed hc := by
    obtain ⟨hlower, hupper⟩ := hnode.placed (h hc).1
    exact ⟨(h.here_le hc).trans hlower, hupper⟩

end Phrase.Covers

theorem Cursor.start_spanFrom (c : Cursor) (first : Span) :
    (c.spanFrom first).start = first.start := by
  unfold spanFrom
  split <;> rfl

open Cursor in
/-- **What the grammar derives covers its own words.**  By induction on the derivation: a rule reads
its words and its parts in the order they are written in. -/
theorem Derives.covers {phrase : Phrase} {c c' : Cursor} (h : Derives phrase c c') :
    phrase.Covers c c' := by
  induction h with
  -- statements
  | noStatement _ _ ih =>
    have hread := passes_behindNewlines.append ih.passes
    exact .ofHere (by simpa using hread) (start_spanFrom _ _)
  | statements _ _ ih ih' =>
    have hread := passes_behindNewlines.append (ih.passes.append ih'.passes)
    exact .ofHere (by simpa using hread) (start_spanFrom _ _)
  | noFurther => exact ⟨passes_behindNewlines, fun _ => trivial⟩
  | further _ _ _ ih ih' =>
    have hread := passes_behindNewlines.append (ih.passes.append ih'.passes)
    exact ⟨by simpa using hread, fun _ => trivial⟩
  | bareReturn h _ =>
    have hread := h.skip (by decide) (.refl _)
    exact .ofHere (by simpa using hread) (start_spanFrom _ _)
  | returnValue h _ ih =>
    have hread := h.skip (by decide) ih.passes
    exact .ofHere (by simpa using hread) (start_spanFrom _ _)
  | continueLoop h =>
    have hread := h.skip (by decide) (.refl _)
    exact .ofHere (by simpa using hread) rfl
  | breakLoop h =>
    have hread := h.skip (by decide) (.refl _)
    exact .ofHere (by simpa using hread) rfl
  | exprStatement _ ih => exact ⟨ih.passes, ih.placed⟩
  -- expressions
  | letExpr _ _ ih => exact ⟨ih.passes, ih.placed⟩
  | expr _ ih => exact ⟨ih.passes, ih.placed⟩
  | operand _ ih => exact ⟨ih.passes, ih.placed⟩
  | binary _ hop _ ih ih' =>
    have hread := Passes.sayBinary (Option.filter_eq_some_iff.1 hop).1 ih'.passes
    exact .ofFirst ih hread (by simp) rfl
  | not h _ ih =>
    have hread := h.say (by decide) (show (UnaryOp.word .not).Fits _ from h.kind) ih.passes
    exact .ofHere (by simpa using hread) (start_spanFrom _ _)
  | negation _ ih => exact ⟨ih.passes, ih.placed⟩
  | plus h _ ih =>
    have hread := h.say (by decide) (show (UnaryOp.word .plus).Fits _ from h.kind) ih.passes
    exact .ofHere (by simpa using hread) (start_spanFrom _ _)
  | minus h _ ih =>
    have hread := h.say (by decide) (show (UnaryOp.word .minus).Fits _ from h.kind) ih.passes
    exact .ofHere (by simpa using hread) (start_spanFrom _ _)
  | signed _ ih => exact ⟨ih.passes, ih.placed⟩
  | base _ ih => exact ⟨ih.passes, ih.placed⟩
  | power _ h _ ih ih' =>
    have hread := h.say (by decide) (show (BinaryOp.word .power).Fits _ from h.kind) ih'.passes
    exact .ofFirst ih hread (by simp) rfl
  | atom _ ih => exact ⟨ih.passes, ih.placed⟩
  | member _ h h' ih =>
    have hread := h.skip (by decide) (h'.sayName (.refl _))
    exact .ofFirst ih hread (by simp) rfl
  | call _ h _ ih ih' =>
    have hread := h.skip (by decide) ih'.passes
    exact .ofFirst ih hread (by simp) (start_spanFrom _ _)
  -- literals, names and brackets
  | int h hvalue =>
    have hfits : (Word.number _).Fits _ := ⟨.inl h.kind, hvalue⟩
    have hread := h.say (by decide) hfits (.refl _)
    exact .ofHere (by simpa using hread) rfl
  | float h hvalue =>
    have hfits : (Word.number _).Fits _ := ⟨.inr h.kind, hvalue⟩
    have hread := h.say (by decide) hfits (.refl _)
    exact .ofHere (by simpa using hread) rfl
  | text h =>
    have hread := h.say (by decide) (show (Word.text _).Fits _ from ⟨h.kind, rfl⟩) (.refl _)
    exact .ofHere (by simpa using hread) rfl
  | true_ h =>
    have hread := h.say (by decide) (show (Word.keyword .true_).Fits _ from h.kind) (.refl _)
    exact .ofHere (by simpa using hread) rfl
  | false_ h =>
    have hread := h.say (by decide) (show (Word.keyword .false_).Fits _ from h.kind) (.refl _)
    exact .ofHere (by simpa using hread) rfl
  | null h =>
    have hread := h.say (by decide) (show (Word.keyword .null_).Fits _ from h.kind) (.refl _)
    exact .ofHere (by simpa using hread) rfl
  | access h =>
    have hread := h.sayName (.refl _)
    exact .ofHere (by simpa using hread) rfl
  | assign h hop _ ih =>
    have hread := h.sayName (.sayAssign hop ih.passes)
    exact .ofHere (by simpa using hread) rfl
  | memberAssign h _ _ hop _ ih ih' =>
    have hread := h.sayName (ih.passes.append (.sayAssign hop ih'.passes))
    exact .ofHere (by simpa using hread) rfl
  | noSegment => exact ⟨.refl _, fun _ => trivial⟩
  | segment h h' _ ih =>
    have hread := h.skip (by decide) (h'.sayName ih.passes)
    exact ⟨by simpa using hread, fun _ => trivial⟩
  | group h _ h' ih =>
    have hinner := ih.followed (h'.skip (by decide) (.refl _))
    exact .ofInner (h.skip (by decide) (.refl _)) hinner
  | list h _ ih =>
    have hread := h.skip (by decide) ih.passes
    exact .ofHere (by simpa using hread) (start_spanFrom _ _)
  | object h _ ih =>
    have hread := h.skip (by decide) ih.passes
    exact .ofHere (by simpa using hread) (start_spanFrom _ _)
  | @entry c _ _ _ kind _ hkind h h' _ ih =>
    have hcontent : kind.isContent = true := by rcases hkind with rfl | rfl <;> rfl
    have hkey : (Word.key (identOf c.current).name).Fits c.current :=
      ⟨hkind.imp h.kind.trans h.kind.trans, rfl⟩
    have hread := h.say hcontent hkey (h'.skip (by decide) ih.passes)
    exact ⟨by simpa using hread, fun _ => trivial⟩
  | noItem hclose h => exact ⟨passes_behindNewlines.append (h.skipClosing hclose), fun _ => trivial⟩
  | sequence _ ih =>
    have hread := passes_behindNewlines.append ih.passes
    exact ⟨by simpa using hread, fun _ => trivial⟩
  | lastItem _ hclose h ih =>
    have hread := ih.passes.append (passes_behindNewlines.append (h.skipClosing hclose))
    exact ⟨by simpa using hread, fun _ => trivial⟩
  | item _ h _ ih ih' =>
    have hread := ih.passes.append (passes_behindNewlines.append
      (h.skip (by decide) (passes_behindNewlines.append ih'.passes)))
    exact ⟨by simpa using hread, fun _ => trivial⟩
  -- definitions
  | declaration h h₁ h₂ _ ih =>
    have hread := h.skip (by decide) (h₁.sayName
      (h₂.say (by decide) (show (AssignOp.word .set).Fits _ from h₂.kind) ih.passes))
    exact .ofHere (by simpa using hread) (start_spanFrom _ _)
  | function h _ h₂ _ _ ihname ihparams ihbody =>
    have hread := h.skip (by decide) (ihname.passes.append
      (h₂.skip (by decide) (ihparams.passes.append ihbody.passes)))
    exact .ofHere (by simpa using hread) (start_spanFrom _ _)
  | functionAtom _ _ ih => exact ⟨ih.passes, ih.placed⟩
  | @visible _ _ _ modifier _ hmodifier h _ ih =>
    have hkind : (TokenKind.keyword modifier).isContent = false ∧
        TokenKind.keyword modifier ≠ .eof := by
      rcases hmodifier with rfl | rfl <;> decide
    have hread := h.skip hkind ih.passes
    exact .ofHere (by simpa using hread) rfl
  | anonymous => exact ⟨.refl _, fun _ => trivial⟩
  | functionName h => exact ⟨h.sayName (.refl _), fun _ => trivial⟩
  | required h => exact ⟨h.sayName (.refl _), fun _ => trivial⟩
  | optional h h' => exact ⟨h.sayName (h'.skip (by decide) (.refl _)), fun _ => trivial⟩
  | lastParam _ _ ih => exact ⟨ih.passes, fun _ => trivial⟩
  | params _ _ h _ ih ih' =>
    have hread := ih.passes.append (h.skip (by decide) ih'.passes)
    exact ⟨by simpa using hread, fun _ => trivial⟩
  | noParam h => exact ⟨h.skip (by decide) (.refl _), fun _ => trivial⟩
  | paramList _ h ih =>
    have hread := ih.passes.append (h.skip (by decide) (.refl _))
    exact ⟨by simpa using hread, fun _ => trivial⟩
  | arrowBody h _ ih => exact ⟨h.skip (by decide) ih.passes, fun _ => trivial⟩
  | blockBody h _ h' ih =>
    have hread := h.skip (by decide) (ih.followed (h'.skip (by decide) (.refl _))).passes
    exact ⟨hread, fun _ => trivial⟩
  -- bodies and arms
  | block h _ h' ih =>
    have hread := h.skip (by decide) (ih.followed (h'.skip (by decide) (.refl _))).passes
    exact ⟨hread, fun _ => trivial⟩
  | inline _ ih => exact ⟨ih.passes, fun _ => trivial⟩
  | blockArm _ h h' _ ih ih' =>
    have hread := ih.passes.append (h.skip (by decide) (h'.skip (by decide) ih'.passes))
    exact ⟨by simpa [Body.node] using hread, fun _ => trivial⟩
  | inlineArm _ h _ ih ih' =>
    have hread := ih.passes.append (h.skip (by decide) ih'.passes)
    exact ⟨by simpa [Body.node] using hread, fun _ => trivial⟩
  | lastBlockArm _ h ih =>
    have hread := ih.passes.append (h.skip (by decide) (.refl _))
    exact ⟨by simpa using hread, fun _ => trivial⟩
  | lastInlineArm _ ih => exact ⟨by simpa using ih.passes, fun _ => trivial⟩
  | elseArm _ h _ ih ih' =>
    have hread := ih.passes.append (h.skip (by decide) ih'.passes)
    exact ⟨by simpa using hread, fun _ => trivial⟩
  | arms _ h _ ih ih' =>
    have hread := ih.passes.append (h.skip (by decide) ih'.passes)
    exact ⟨by simpa using hread, fun _ => trivial⟩
  | conditional h _ ih =>
    have hread := h.skip (by decide) ih.passes
    exact .ofHere (by simpa using hread) (start_spanFrom _ _)
  -- loops
  | forObject h h₁ h₂ h₃ h₄ _ h₆ _ ih ih' =>
    have hread := h.skip (by decide) (h₁.sayName (h₂.skip (by decide) (h₃.sayName
      (h₄.skip (by decide) (ih.passes.append (h₆.skip (by decide) ih'.passes))))))
    exact .ofHere (by simpa using hread) (start_spanFrom _ _)
  | forList h h₁ h₂ _ h₄ _ ih ih' =>
    have hread := h.skip (by decide) (h₁.sayName (h₂.skip (by decide)
      (ih.passes.append (h₄.skip (by decide) ih'.passes))))
    exact .ofHere (by simpa using hread) (start_spanFrom _ _)
  | forCount h h₁ h₂ _ h₄ _ h₆ _ ihfirst ihlast ih =>
    have hequal : (Word.symbol .equal).Fits _ := h₂.kind
    have hread := h.skip (by decide) (h₁.sayName (h₂.say (by decide) hequal
      (ihfirst.passes.append (h₄.skip (by decide)
        (ihlast.passes.append (h₆.skip (by decide) ih.passes))))))
    exact .ofHere (by simpa using hread) (start_spanFrom _ _)
  | forCountStep h h₁ h₂ _ h₄ _ h₆ _ h₈ _ ihfirst ihlast ihstep ih =>
    have hequal : (Word.symbol .equal).Fits _ := h₂.kind
    have hread := h.skip (by decide) (h₁.sayName (h₂.say (by decide) hequal
      (ihfirst.passes.append (h₄.skip (by decide) (ihlast.passes.append (h₆.skip (by decide)
        (ihstep.passes.append (h₈.skip (by decide) ih.passes))))))))
    exact .ofHere (by simpa using hread) (start_spanFrom _ _)
  | whileLoop h _ h₂ _ ih ih' =>
    have hread := h.skip (by decide) (ih.passes.append (h₂.skip (by decide) ih'.passes))
    exact .ofHere (by simpa using hread) (start_spanFrom _ _)
  -- choices and imports
  | blockCase h _ _ ih => exact .ofInner (h.skip (by decide) (.refl _)) ih
  | inlineCase h _ ih => exact .ofInner (h.skip (by decide) (.refl _)) ih
  | noClause h => exact ⟨h.skip (by decide) (.refl _), fun _ => ⟨by simp, .nil⟩⟩
  | caseClause h _ _ _ ihpattern ihbody ih =>
    have hmove := ihbody.passes.append passes_behindNewlines
    have hread := h.skip (by decide) (ihpattern.passes.append (hmove.append ih.passes))
    refine ⟨by simpa using hread, fun hc => ?_⟩
    have hc₁ := (h.skip (by decide) (.refl _) hc).1
    have hc₂ := (ihpattern.passes hc₁).1
    obtain ⟨hlower, hupper⟩ := ihpattern.placed hc₁
    exact .cons ((h.here_lt (by decide) hc).trans_le hlower) (hupper.trans (hmove.here_le hc₂))
      (ih.placed (hmove hc₂).1)
  | defaultClause h _ _ ihbody ih =>
    have hread := h.skip (by decide) (ihbody.passes.append (passes_behindNewlines.append ih.passes))
    refine ⟨by simpa using hread, fun hc => ?_⟩
    have hc₁ := (h.skip (by decide) (.refl _) hc).1
    have hc₂ := (ihbody.passes hc₁).1
    obtain ⟨hlower, hupper⟩ := ihbody.placed hc₁
    exact .cons ((h.here_lt (by decide) hc).trans_le hlower)
      (hupper.trans (passes_behindNewlines.here_le hc₂)) (ih.placed (passes_behindNewlines hc₂).1)
  | @switch c c₁ c₂ c' subject clauses otherwise h _ _ _ hdefaults ih ih' =>
    have hfront := h.skip (by decide) (ih.passes.append passes_behindNewlines)
    have hread := h.skip (by decide) (ih.passes.append (passes_behindNewlines.append ih'.passes))
    refine .ofHere (fun hc => ?_) (start_spanFrom _ _)
    obtain ⟨-, hplaces⟩ := ih'.placed (hfront hc).1
    simpa [Clause.inOrder_cases hplaces hdefaults] using hread hc
  | importAs h _ h₂ h₃ ih =>
    have hread := h.skip (by decide) (ih.passes.append (h₂.skip (by decide) (h₃.sayName (.refl _))))
    exact .ofHere (by simpa using hread) (start_spanFrom _ _)

/-! ## Programs -/

/-- **Reading loses and repeats nothing.**  The literals, names and operators of the tree of a
source are those of its tokens, each once and in order. -/
theorem yield_fits_tokens {source : Source} {tokens : List Token} {root : Node}
    (htokens : tokenize source = .ok tokens) (hparse : Node.parse tokens = .ok root) :
    List.Forall₂ Word.Fits root.yield (tokens.filter (·.kind.isContent)) := by
  obtain ⟨first, rest, c, rfl, hderives, heof⟩ := Node.derives_of_parse htokens hparse
  obtain ⟨hc, front, hfront, hwords⟩ := hderives.covers.passes (orderly_of_tokenize htokens)
  have hlast : c.tokens = [c.current] := congrArg (c.current :: ·) (hc.eq_nil heof)
  have hfront : first :: rest = front ++ [c.current] := hlast ▸ hfront
  have hcontent : c.current.kind.isContent = false := by rw [heof]; rfl
  rw [hfront, List.filter_append, List.filter_cons_of_neg (by simp [hcontent])]
  simpa using hwords

/-- In this source the default of a `switch` stands in front of a case, and a dotted name is read
twice before it turns out not to be assigned to. -/
theorem default_in_front_loses_nothing : ∃ (tokens : List Token) (root : Node),
    tokenize ⟨"main", "switch a.b\ndefault then x\ncase -c then y\nend"⟩ = .ok tokens ∧
      Node.parse tokens = .ok root ∧
      List.Forall₂ Word.Fits root.yield (tokens.filter (·.kind.isContent)) := by
  have hread : (tokenize ⟨"main", "switch a.b\ndefault then x\ncase -c then y\nend"⟩).toOption.any
      (fun tokens => (Node.parse tokens).toOption.isSome) = true := by
    decide +kernel
  cases htokens : tokenize ⟨"main", "switch a.b\ndefault then x\ncase -c then y\nend"⟩ with
  | error e =>
    rw [htokens] at hread
    cases hread
  | ok tokens =>
    rw [htokens] at hread
    cases hparse : Node.parse tokens with
    | error e => simp [Except.toOption, hparse] at hread
    | ok root => exact ⟨tokens, root, rfl, hparse, yield_fits_tokens htokens hparse⟩

end BpScript
