import BpScript.Proofs.Subtree

/-!
# Spans nest

The stretch of source that a node was read from holds the stretches of its names and of the nodes it
consists of, side by side and in order.  Spans come about in three ways: some are those of a token,
some run from a token to the last one that was read, and some run from one part to another.
Parentheses belong to no node, and an empty block borrows the span of a token that is not its own.

* `Span.IsIn` — both ends of a span are places of the text, the first one not behind the second.
* `Node.Nests` — what is said of a node and its parts.
* `Span.Laid` — spans that lie side by side between two places.
* `Cursor.Lays`, `Cursor.Opens` — the parts that stand between two cursors.  Parts that are *open*
  may reach over the token at the second cursor, and wait for it to be read.
* `Derives.lays` — what the grammar derives, rule by rule.
* **`spans_nest`** — programs.
-/

namespace BpScript

open Production

/-! ## Spans -/

/-- The places of a text: those behind a front of it. -/
def Source.HasPlace (source : Source) (p : Position) : Prop :=
  ∃ before after : List Char, source.text.toList = before ++ after ∧ p = .behind before

namespace Span

/-- A stretch of the text of `source`. -/
structure IsIn (source : Source) (span : Span) : Prop where
  source_eq : span.source = source
  start : source.HasPlace span.start
  stop : source.HasPlace span.stop
  start_le_stop : span.start.index ≤ span.stop.index

/-- The span starts and ends within another one. -/
structure Within (inner outer : Span) : Prop where
  start_le : outer.start.index ≤ inner.start.index
  stop_le : inner.stop.index ≤ outer.stop.index

/-- The first span ends where the second one starts, or before. -/
def Before (first second : Span) : Prop :=
  first.stop.index ≤ second.start.index

end Span

/-- The stretch a name or a node was read from.  Words have none of their own. -/
@[simp] def Part.span? : Part → Option Span
  | .word _ => none
  | .name ident => some ident.span
  | .key ident => some ident.span
  | .node n => some n.span

/-- The spans of names and nodes, in order. -/
def Part.spans (parts : List Part) : List Span :=
  parts.filterMap span?

/-- The spans of the names and nodes that a node consists of lie in its own, one behind the other.
They are spans of `source`, and so is its own. -/
structure Node.Nests (source : Source) (node : Node) : Prop where
  isIn : node.span.IsIn source
  part_isIn : ∀ span ∈ Part.spans node.form.contents, span.IsIn source
  part_within : ∀ span ∈ Part.spans node.form.contents, span.Within node.span
  parts_apart : (Part.spans node.form.contents).Pairwise Span.Before

/-! ## Spans side by side -/

/-- Spans of `source` that lie side by side between two places. -/
structure Span.Laid (source : Source) (low : Nat) (spans : List Span) (high : Nat) : Prop where
  isIn : ∀ span ∈ spans, span.IsIn source
  low_le : ∀ span ∈ spans, low ≤ span.start.index
  le_high : ∀ span ∈ spans, span.stop.index ≤ high
  apart : spans.Pairwise Span.Before

namespace Span.Laid

variable {source : Source} {low low' middle middle' high high' : Nat} {spans spans' : List Span}
  {span first last : Span}

theorem nil : Laid source low [] high :=
  ⟨by simp, by simp, by simp, .nil⟩

theorem singleton (h : span.IsIn source) (hlow : low ≤ span.start.index)
    (hhigh : span.stop.index ≤ high) : Laid source low [span] high :=
  ⟨by simpa using h, by simpa using hlow, by simpa using hhigh, List.pairwise_singleton _ _⟩

theorem widen (h : Laid source low spans high) (hlow : low' ≤ low) (hhigh : high ≤ high') :
    Laid source low' spans high' :=
  ⟨h.isIn, fun s hs => hlow.trans (h.low_le s hs), fun s hs => (h.le_high s hs).trans hhigh,
    h.apart⟩

theorem append (h : Laid source low spans middle) (h' : Laid source middle' spans' high)
    (hmiddle : middle ≤ middle') (hlow : low ≤ middle') (hhigh : middle ≤ high) :
    Laid source low (spans ++ spans') high where
  isIn := List.forall_mem_append.2 ⟨h.isIn, h'.isIn⟩
  low_le := List.forall_mem_append.2 ⟨h.low_le, fun s hs => hlow.trans (h'.low_le s hs)⟩
  le_high := List.forall_mem_append.2 ⟨fun s hs => (h.le_high s hs).trans hhigh, h'.le_high⟩
  apart := List.pairwise_append.2 ⟨h.apart, h'.apart, fun s hs t ht =>
    (h.le_high s hs).trans (hmiddle.trans (h'.low_le t ht))⟩

/-- Spans that lie side by side start with the first one. -/
theorem fromFirst (h : Laid source low spans high) (hfirst : spans.head? = some first) :
    Laid source first.start.index spans high := by
  refine ⟨h.isIn, ?_, h.le_high, h.apart⟩
  obtain ⟨rest, rfl⟩ := List.head?_eq_some_iff.1 hfirst
  refine List.forall_mem_cons.2 ⟨Nat.le_refl _, fun s hs => ?_⟩
  exact (h.isIn first List.mem_cons_self).start_le_stop.trans (List.rel_of_pairwise_cons h.apart hs)

/-- Spans that lie side by side end with the last one. -/
theorem uptoLast (h : Laid source low spans high) (hlast : spans.getLast? = some last) :
    Laid source low spans last.stop.index := by
  refine ⟨h.isIn, h.low_le, ?_, h.apart⟩
  obtain ⟨front, rfl⟩ := List.getLast?_eq_some_iff.1 hlast
  refine List.forall_mem_append.2 ⟨fun s hs => ?_, by simp⟩
  have hbefore := (List.pairwise_append.1 h.apart).2.2 s hs last (by simp)
  exact Nat.le_trans hbefore (h.isIn last (by simp)).start_le_stop

end Span.Laid

theorem Node.Nests.laid {source : Source} {node : Node} (h : node.Nests source) :
    Span.Laid source node.span.start.index (Part.spans node.form.contents) node.span.stop.index :=
  ⟨h.part_isIn, fun s hs => (h.part_within s hs).start_le, fun s hs => (h.part_within s hs).stop_le,
    h.parts_apart⟩

theorem Node.Nests.ofLaid {source : Source} {form : Form} {span : Span} (hspan : span.IsIn source)
    (h : Span.Laid source span.start.index (Part.spans form.contents) span.stop.index) :
    (Node.mk form span).Nests source :=
  ⟨hspan, h.isIn, fun s hs => ⟨h.low_le s hs, h.le_high s hs⟩, h.apart⟩

/-! ## Cursors -/

namespace Cursor

/-- The tokens from here on lie side by side in the text of `source`, and the last token that was
read does not end behind the current one. -/
structure Tidy (source : Source) (c : Cursor) : Prop where
  orderly : Orderly c.tokens
  isIn : ∀ token ∈ c.tokens, token.span.IsIn source
  apart : c.tokens.Pairwise fun s t => s.span.Before t.span
  lastStop : source.HasPlace c.lastStop
  lastStop_le : c.lastStop.index ≤ c.current.span.stop.index

/-- The current token of `c` has been read at `c'`, which stands behind the last token read. -/
structure Ahead (c c' : Cursor) : Prop where
  stop_le : c.current.span.stop.index ≤ c'.lastStop.index
  lastStop_le_here : c'.lastStop.index ≤ c'.here

variable {source : Source} {c c₁ c₂ c' : Cursor} {kind : TokenKind}

theorem Tidy.current (h : c.Tidy source) : c.current.span.IsIn source :=
  h.isIn c.current List.mem_cons_self

theorem Ahead.here_le (h : c.Ahead c') (hc : c.Tidy source) : c.here ≤ c'.here :=
  hc.current.start_le_stop.trans (h.stop_le.trans h.lastStop_le_here)

theorem Ahead.lastStop_le (h : c.Ahead c') (hc : c.Tidy source) :
    c.lastStop.index ≤ c'.lastStop.index :=
  hc.lastStop_le.trans h.stop_le

theorem Ahead.trans (h : c.Ahead c₁) (h' : c₁.Ahead c') (hc₁ : c₁.Tidy source) : c.Ahead c' :=
  ⟨h.stop_le.trans (h'.lastStop_le hc₁), h'.lastStop_le_here⟩

theorem step_advance (c : Cursor) : c.Step c.current.kind c.advance :=
  ⟨rfl, rfl⟩

/-- Reading a token leaves the cursor behind it. -/
theorem Step.ahead (h : c.Step kind c') (hne : kind ≠ .eof) (hc : c.Tidy source) :
    c'.Tidy source ∧ c.Ahead c' ∧ c'.lastStop = c.current.span.stop := by
  obtain ⟨htokens, horderly⟩ := tokens_advance hc.orderly (h.kind.trans_ne hne)
  have hstop : c.advance.lastStop = c.current.span.stop := by
    rcases c with ⟨index, current, _ | ⟨next, rest⟩, lastStop, deferred⟩
    · exact absurd htokens (by simp [tokens, advance])
    · rfl
  rw [← h.next] at htokens horderly hstop
  have hisIn := hc.isIn
  have hapart := hc.apart
  rw [htokens] at hisIn hapart
  have hbefore : c.current.span.Before c'.current.span :=
    List.rel_of_pairwise_cons hapart List.mem_cons_self
  have hcurrent : c'.current.span.IsIn source :=
    hisIn _ (List.mem_cons_of_mem _ List.mem_cons_self)
  refine ⟨⟨horderly, fun t ht => hisIn t (List.mem_cons_of_mem _ ht), hapart.of_cons, ?_, ?_⟩,
    ⟨by rw [hstop], ?_⟩, hstop⟩
  · rw [hstop]
    exact hc.current.stop
  · rw [hstop]
    exact Nat.le_trans hbefore hcurrent.start_le_stop
  · rw [hstop]
    exact hbefore

/-! ## Parts between cursors -/

/-- From `c` to `c'` stand `parts`, side by side, and the last one ends in front of `c'`. -/
structure Stretch (source : Source) (c : Cursor) (parts : List Part) (c' : Cursor) : Prop where
  tidy : c'.Tidy source
  moved : Part.spans parts = [] ∧ c' = c ∨ c.Ahead c'
  laid : Span.Laid source c.here (Part.spans parts) c'.lastStop.index
  nests : ∀ node, .node node ∈ parts → node.All (Node.Nests source)

/-- The same, but the last part may take up the token at `c'`. -/
structure OpenStretch (source : Source) (c : Cursor) (parts : List Part) (c' : Cursor) : Prop where
  tidy : c'.Tidy source
  moved : c' = c ∨ c.Ahead c'
  laid : Span.Laid source c.here (Part.spans parts) c'.current.span.stop.index
  nests : ∀ node, .node node ∈ parts → node.All (Node.Nests source)

/-- If the tokens are tidy, `parts` stand between `c` and `c'`. -/
def Lays (source : Source) (c : Cursor) (parts : List Part) (c' : Cursor) : Prop :=
  c.Tidy source → c.Stretch source parts c'

/-- If the tokens are tidy, `parts` stand between `c` and `c'`, the token at `c'` included. -/
def Opens (source : Source) (c : Cursor) (parts : List Part) (c' : Cursor) : Prop :=
  c.Tidy source → c.OpenStretch source parts c'

variable {parts parts' : List Part} {form : Form} {node : Node}

theorem Stretch.here_le (h : c.Stretch source parts c') (hc : c.Tidy source) :
    c.here ≤ c'.here := by
  rcases h.moved with ⟨-, rfl⟩ | hahead
  · exact Nat.le_refl _
  · exact hahead.here_le hc

theorem Stretch.lastStop_le (h : c.Stretch source parts c') (hc : c.Tidy source) :
    c.lastStop.index ≤ c'.lastStop.index := by
  rcases h.moved with ⟨-, rfl⟩ | hahead
  · exact Nat.le_refl _
  · exact hahead.lastStop_le hc

/-- Behind a cursor that has moved there is still one that has moved. -/
theorem Ahead.stretch (h : c.Ahead c₁) (h' : c₁.Stretch source parts c') (hc₁ : c₁.Tidy source) :
    c.Ahead c' := by
  rcases h'.moved with ⟨-, rfl⟩ | hahead
  · exact h
  · exact h.trans hahead hc₁

theorem spans_append (parts parts' : List Part) :
    Part.spans (parts ++ parts') = Part.spans parts ++ Part.spans parts' :=
  List.filterMap_append

theorem Lays.refl (c : Cursor) : c.Lays source [] c :=
  fun hc => ⟨hc, .inl ⟨rfl, rfl⟩, .nil, by simp⟩

theorem Lays.append (h : c.Lays source parts c₁) (h' : c₁.Lays source parts' c') :
    c.Lays source (parts ++ parts') c' := by
  intro hc
  have hfirst := h hc
  have hsecond := h' hfirst.tidy
  refine ⟨hsecond.tidy, ?_, ?_, fun node hnode => ?_⟩
  · rcases hfirst.moved with ⟨hnil, rfl⟩ | hahead
    · rcases hsecond.moved with ⟨hnil', rfl⟩ | hahead
      · exact .inl ⟨by rw [spans_append, hnil, hnil']; rfl, rfl⟩
      · exact .inr hahead
    · exact .inr (hahead.stretch hsecond hfirst.tidy)
  · rw [spans_append]
    rcases hfirst.moved with ⟨hnil, rfl⟩ | hahead
    · rw [hnil]
      exact hsecond.laid
    · exact hfirst.laid.append hsecond.laid hahead.lastStop_le_here (hfirst.here_le hc)
        (hsecond.lastStop_le hfirst.tidy)
  · rcases List.mem_append.1 hnode with hnode | hnode
    · exact hfirst.nests node hnode
    · exact hsecond.nests node hnode

/-- Words take up no place of their own. -/
@[simp] theorem lays_word_cons {word : Word} :
    c.Lays source (.word word :: parts) c' ↔ c.Lays source parts c' := by
  have hspans : Part.spans (.word word :: parts) = Part.spans parts := rfl
  constructor
  · intro h hc
    have := h hc
    exact ⟨this.tidy, hspans ▸ this.moved, hspans ▸ this.laid,
      fun node hnode => this.nests node (List.mem_cons_of_mem _ hnode)⟩
  · intro h hc
    have := h hc
    refine ⟨this.tidy, hspans ▸ this.moved, hspans ▸ this.laid, fun node hnode => ?_⟩
    rcases List.mem_cons.1 hnode with hword | hnode
    · cases hword
    · exact this.nests node hnode

/-- A token that is no part. -/
theorem Step.passBy (h : c.Step kind c₁) (hne : kind ≠ .eof) (hrest : c₁.Lays source parts c') :
    c.Lays source parts c' := by
  intro hc
  obtain ⟨hc₁, hahead, -⟩ := h.ahead hne hc
  have hstretch := hrest hc₁
  exact ⟨hstretch.tidy, .inr (hahead.stretch hstretch hc₁),
    hstretch.laid.widen (hahead.here_le hc) (Nat.le_refl _), hstretch.nests⟩

/-- A token that is a name or a key. -/
theorem Step.lay {part : Part} (h : c.Step kind c₁) (hne : kind ≠ .eof)
    (hpart : part = .name (identOf c.current) ∨ part = .key (identOf c.current))
    (hrest : c₁.Lays source parts c') : c.Lays source (part :: parts) c' := by
  have hspans : Part.spans [part] = [c.current.span] := by
    rcases hpart with rfl | rfl <;> rfl
  suffices hfirst : c.Lays source [part] c₁ from hfirst.append hrest
  intro hc
  obtain ⟨hc₁, hahead, hstop⟩ := h.ahead hne hc
  refine ⟨hc₁, .inr hahead, ?_, fun node hnode => ?_⟩
  · rw [hspans, hstop]
    exact .singleton hc.current (Nat.le_refl _) (Nat.le_refl _)
  · rcases hpart with rfl | rfl <;> simp at hnode

/-- A name. -/
theorem Step.layName (h : c.Step .ident c₁) (hrest : c₁.Lays source parts c') :
    c.Lays source (.name (identOf c.current) :: parts) c' :=
  h.lay (by decide) (.inl rfl) hrest

theorem lays_behindNewlines : c.Lays source [] c.behindNewlines := fun hc =>
  behindNewlines_induction (P := (·.Lays source [] ·)) .refl (fun h => h.passBy (by decide))
    hc.orderly hc

/-! Open parts are closed by the next token that is read. -/

theorem Lays.opens (h : c.Lays source parts c') : c.Opens source parts c' := by
  intro hc
  have hstretch := h hc
  exact ⟨hstretch.tidy, hstretch.moved.imp_left And.right,
    hstretch.laid.widen (Nat.le_refl _) hstretch.tidy.lastStop_le, hstretch.nests⟩

theorem Lays.append_opens (h : c.Lays source parts c₁) (h' : c₁.Opens source parts' c') :
    c.Opens source (parts ++ parts') c' := by
  intro hc
  have hfirst := h hc
  have hsecond := h' hfirst.tidy
  have hmoved : c' = c ∨ c.Ahead c' := by
    rcases hsecond.moved with rfl | hahead
    · exact hfirst.moved.imp_left And.right
    · rcases hfirst.moved with ⟨-, rfl⟩ | hahead₁
      · exact .inr hahead
      · exact .inr (hahead₁.trans hahead hfirst.tidy)
  refine ⟨hsecond.tidy, hmoved, ?_, fun node hnode => ?_⟩
  · rw [spans_append]
    rcases hfirst.moved with ⟨hnil, rfl⟩ | hahead
    · rw [hnil]
      exact hsecond.laid
    · have hhigh : c₁.lastStop.index ≤ c'.current.span.stop.index := by
        rcases hsecond.moved with rfl | hahead'
        · exact hsecond.tidy.lastStop_le
        · exact (hahead'.lastStop_le hfirst.tidy).trans hsecond.tidy.lastStop_le
      exact hfirst.laid.append hsecond.laid hahead.lastStop_le_here (hfirst.here_le hc) hhigh
  · rcases List.mem_append.1 hnode with hnode | hnode
    · exact hfirst.nests node hnode
    · exact hsecond.nests node hnode

/-- Once the token that open parts may take up is read, they are closed. -/
theorem Opens.close (h : c.Opens source parts c₁) (h' : c₁.Lays source [] c₂)
    (hstep : c₂.Step kind c') (hne : kind ≠ .eof) : c.Lays source parts c' := by
  intro hc
  have hopen := h hc
  obtain ⟨hc', hahead, -⟩ := hstep.ahead hne (h' hopen.tidy).tidy
  have hahead₁ : c₁.Ahead c' := by
    rcases (h' hopen.tidy).moved with ⟨-, rfl⟩ | hahead'
    · exact hahead
    · exact hahead'.trans hahead (h' hopen.tidy).tidy
  have hmoved : c.Ahead c' := by
    rcases hopen.moved with rfl | hahead'
    · exact hahead₁
    · exact hahead'.trans hahead₁ hopen.tidy
  exact ⟨hc', .inr hmoved, hopen.laid.widen (Nat.le_refl _) hahead₁.stop_le, hopen.nests⟩

/-! ## Nodes between cursors -/

/-- A node whose parts lie in its span. -/
theorem Stretch.wrap {span : Span} (h : c.Stretch source form.contents c') (hahead : c.Ahead c')
    (hspan : span.IsIn source) (hlow : c.here ≤ span.start.index)
    (hhigh : span.stop.index ≤ c'.lastStop.index)
    (hlaid : Span.Laid source span.start.index (Part.spans form.contents) span.stop.index) :
    c.Stretch source [.node (.mk form span)] c' where
  tidy := h.tidy
  moved := .inr hahead
  laid := .singleton hspan hlow hhigh
  nests node hnode := by
    obtain rfl : node = .mk form span := by simpa using hnode
    exact .intro (.ofLaid hspan hlaid) h.nests

/-- A node that is a single token. -/
theorem Step.leaf (h : c.Step kind c') (hne : kind ≠ .eof)
    (hparts : c.Lays source form.contents c') :
    c.Lays source [.node (.mk form c.current.span)] c' := by
  intro hc
  obtain ⟨-, hahead, hstop⟩ := h.ahead hne hc
  have hstretch := hparts hc
  exact hstretch.wrap hahead hc.current (Nat.le_refl _) (by rw [hstop]) (hstop ▸ hstretch.laid)

/-- A token that is a literal. -/
theorem Step.leafWord {word : Word} (h : c.Step kind c₁) (hne : kind ≠ .eof)
    (hform : form.contents = [.word word]) :
    c.Lays source [.node (.mk form c.current.span)] c₁ := by
  refine h.leaf hne ?_
  rw [hform]
  exact lays_word_cons.2 (h.passBy hne (.refl _))

/-- A node from a token that is no part of it to the last token read. -/
theorem Step.wrap (h : c.Step kind c₁) (hne : kind ≠ .eof)
    (hrest : c₁.Lays source form.contents c') :
    c.Lays source [.node (.mk form (c'.spanFrom c.current.span))] c' := by
  intro hc
  obtain ⟨hc₁, hahead, -⟩ := h.ahead hne hc
  have hahead' := hahead.stretch (hrest hc₁) hc₁
  have hstretch := h.passBy hne hrest hc
  have hle : c.here ≤ c'.lastStop.index := hc.current.start_le_stop.trans hahead'.stop_le
  have hspan : c'.spanFrom c.current.span = { c.current.span with stop := c'.lastStop } :=
    if_neg (Nat.not_lt.2 hle)
  rw [hspan]
  exact hstretch.wrap hahead' ⟨hc.current.source_eq, hc.current.start, hstretch.tidy.lastStop, hle⟩
    (Nat.le_refl _) (Nat.le_refl _) hstretch.laid

theorem Stretch.ahead {first : Span} (h : c.Stretch source parts c')
    (hfirst : (Part.spans parts).head? = some first) : c.Ahead c' := by
  rcases h.moved with ⟨hnil, -⟩ | hahead
  · rw [hnil] at hfirst
    cases hfirst
  · exact hahead

/-- A node from its first part to its last one. -/
theorem Lays.through {first last : Span} (h : c.Lays source form.contents c')
    (hfirst : (Part.spans form.contents).head? = some first)
    (hlast : (Part.spans form.contents).getLast? = some last) :
    c.Lays source [.node (.mk form (first.through last))] c' := by
  intro hc
  have hstretch := h hc
  have hmem := List.mem_of_head? hfirst
  have hmem' := List.mem_of_getLast? hlast
  have hlaid := (hstretch.laid.fromFirst hfirst).uptoLast hlast
  have hisIn := hstretch.laid.isIn first hmem
  refine hstretch.wrap (hstretch.ahead hfirst)
    ⟨hisIn.source_eq, hisIn.start, (hstretch.laid.isIn last hmem').stop, ?_⟩
    (hstretch.laid.low_le first hmem) (hstretch.laid.le_high last hmem') hlaid
  exact hisIn.start_le_stop.trans (hlaid.le_high first hmem)

/-- A node from its first part to the last token read. -/
theorem Lays.spanFrom {first : Span} (h : c.Lays source form.contents c')
    (hfirst : (Part.spans form.contents).head? = some first) :
    c.Lays source [.node (.mk form (c'.spanFrom first))] c' := by
  intro hc
  have hstretch := h hc
  have hmem := List.mem_of_head? hfirst
  have hisIn := hstretch.laid.isIn first hmem
  have hle := hisIn.start_le_stop.trans (hstretch.laid.le_high first hmem)
  have hspan : c'.spanFrom first = { first with stop := c'.lastStop } := if_neg (Nat.not_lt.2 hle)
  have hlaid := hstretch.laid.fromFirst hfirst
  rw [hspan]
  exact hstretch.wrap (hstretch.ahead hfirst)
    ⟨hisIn.source_eq, hisIn.start, hstretch.tidy.lastStop, hle⟩
    (hstretch.laid.low_le first hmem) (Nat.le_refl _) hlaid

/-- A node behind a token that is counted among its own. -/
theorem Step.extend (h : c.Step kind c₁) (hne : kind ≠ .eof)
    (hnode : c₁.Lays source [.node node] c') :
    c.Lays source [.node (node.withSpan (c.current.span.through node.span))] c' := by
  intro hc
  obtain ⟨hc₁, hahead, -⟩ := h.ahead hne hc
  have hstretch := hnode hc₁
  have hall := hstretch.nests node (by simp)
  have hnests := hall.self
  have hlow : c.here ≤ node.span.start.index :=
    (hahead.here_le hc).trans (hstretch.laid.low_le node.span (by simp [Part.spans]))
  have hhigh := hstretch.laid.le_high node.span (by simp [Part.spans])
  have hspan : (c.current.span.through node.span).IsIn source :=
    ⟨hc.current.source_eq, hc.current.start, hnests.isIn.stop, hlow.trans hnests.isIn.start_le_stop⟩
  refine ⟨hstretch.tidy, .inr (hahead.stretch hstretch hc₁),
    .singleton hspan (Nat.le_refl _) hhigh, fun outer houter => ?_⟩
  obtain rfl : outer = node.withSpan (c.current.span.through node.span) := by simpa using houter
  exact .intro (.ofLaid hspan (hnests.laid.widen hlow (Nat.le_refl _)))
    fun inner hinner => hall.of_mem_contents hinner

/-- A block from the first token to the last one read.  If no token is read, the block is empty and
takes up the token it stands at. -/
theorem Opens.block (h : c.Lays source form.contents c') :
    c.Opens source [.node (.mk form (c'.spanFrom c.current.span))] c' := by
  intro hc
  have hstretch := h hc
  have hmoved := hstretch.moved.imp_left And.right
  by_cases hlt : c'.lastStop.index < c.here
  · have hspan : c'.spanFrom c.current.span = c.current.span := if_pos hlt
    obtain rfl : c' = c := by
      rcases hmoved with rfl | hahead
      · rfl
      · exact absurd (hc.current.start_le_stop.trans hahead.stop_le) (Nat.not_le.2 hlt)
    have hnil : Part.spans form.contents = [] := by
      refine List.eq_nil_iff_forall_not_mem.2 fun span hmem => ?_
      have hle := (hstretch.laid.isIn span hmem).start_le_stop.trans
        (hstretch.laid.le_high span hmem)
      exact absurd ((hstretch.laid.low_le span hmem).trans hle) (Nat.not_le.2 hlt)
    rw [hspan]
    refine ⟨hc, .inl rfl, .singleton hc.current (Nat.le_refl _) (Nat.le_refl _),
      fun node hnode => ?_⟩
    obtain rfl : node = .mk form c'.current.span := by simpa using hnode
    exact .intro (.ofLaid hc.current (hnil ▸ .nil)) hstretch.nests
  · have hspan : c'.spanFrom c.current.span = { c.current.span with stop := c'.lastStop } :=
      if_neg hlt
    have hisIn : Span.IsIn source { c.current.span with stop := c'.lastStop } :=
      ⟨hc.current.source_eq, hc.current.start, hstretch.tidy.lastStop, Nat.not_lt.1 hlt⟩
    rw [hspan]
    refine ⟨hstretch.tidy, hmoved,
      .singleton hisIn (Nat.le_refl _) hstretch.tidy.lastStop_le, fun node hnode => ?_⟩
    obtain rfl : node = .mk form { c.current.span with stop := c'.lastStop } := by
      simpa using hnode
    exact .intro (.ofLaid hisIn hstretch.laid) hstretch.nests

end Cursor

/-! ## Phrases -/

namespace Phrase

/-- Phrases whose last part may be an empty block, which takes up the token behind it. -/
@[simp] def isOpen : Phrase → Bool
  | .node .statements _ => true
  | .arm (_, b) => b.isBlock
  | _ => false

theorem isOpen_operand (level : Level) (n : Node) :
    (Phrase.node level.operand n).isOpen = false := by
  cases level <;> rfl

/-- The parts of a phrase stand between two cursors. -/
structure Lays (source : Source) (phrase : Phrase) (c c' : Cursor) : Prop where
  opens : c.Opens source phrase.contents c'
  lays : phrase.isOpen = false → c.Lays source phrase.contents c'

theorem Lays.closed {source : Source} {phrase : Phrase} {c c' : Cursor}
    (h : c.Lays source phrase.contents c') : phrase.Lays source c c' :=
  ⟨h.opens, fun _ => h⟩

end Phrase

/-- A statement list leaves no newline behind. -/
theorem Derives.current_ne_newline {nodes : List Node} {c c' : Cursor}
    (h : Derives (.further nodes) c c') (hc : Orderly c.tokens) : c'.current.kind ≠ .newline := by
  generalize hphrase : Phrase.further nodes = phrase at h
  induction h generalizing nodes with
  | noFurther => exact (Cursor.behindNewlines_spec (Cursor.endsInEof_of_orderly hc)).2.2.1
  | further _ hfirst _ _ ih =>
    exact ih (hfirst.covers.passes (Cursor.passes_behindNewlines hc).1).1 rfl
  | _ => cases hphrase

/-- A statement list that starts with a newline takes up no token but its own. -/
theorem Derives.lays_of_newline {source : Source} {node : Node} {c c' : Cursor}
    (h : Derives (.node .statements node) c c') (hnewline : c.current.kind = .newline)
    (hopens : c.Opens source [.node node] c') : c.Lays source [.node node] c' := by
  intro hc
  have hopen := hopens hc
  have hbehind := Cursor.passes_behindNewlines hc.orderly
  have hmoved : c.Ahead c' ∧ node.span = c'.spanFrom c.current.span := by
    refine ⟨hopen.moved.resolve_left ?_, ?_⟩
    · rintro rfl
      cases h with
      | noStatement _ hfurther => exact hfurther.current_ne_newline hbehind.1 hnewline
      | statements hfirst hfurther =>
        exact hfurther.current_ne_newline (hfirst.covers.passes hbehind.1).1 hnewline
    · cases h <;> rfl
  obtain ⟨hahead, hspan⟩ := hmoved
  have hle : c.here ≤ c'.lastStop.index := hc.current.start_le_stop.trans hahead.stop_le
  have hstop : node.span.stop = c'.lastStop := by
    rw [hspan]
    exact congrArg Span.stop (if_neg (Nat.not_lt.2 hle))
  have hnests := (hopen.nests node (by simp)).self
  refine ⟨hopen.tidy, .inr hahead, .singleton hnests.isIn ?_ (by rw [hstop]), hopen.nests⟩
  exact hopen.laid.low_le node.span (by simp [Part.spans])

open Cursor in
/-- **What the grammar derives lies side by side.**  By induction on the derivation: a rule reads
its tokens and its parts in the order they are written in, and its node spans what it has read. -/
theorem Derives.lays {source : Source} {phrase : Phrase} {c c' : Cursor}
    (h : Derives phrase c c') : phrase.Lays source c c' := by
  induction h with
  -- statements
  | noStatement _ _ ih =>
    exact ⟨.block (lays_behindNewlines.append (ih.lays rfl)), by simp⟩
  | statements _ _ ih ih' =>
    exact ⟨.block (lays_behindNewlines.append ((ih.lays rfl).append (ih'.lays rfl))), by simp⟩
  | noFurther => exact .closed lays_behindNewlines
  | further _ _ _ ih ih' =>
    exact .closed (lays_behindNewlines.append ((ih.lays rfl).append (ih'.lays rfl)))
  | bareReturn h _ => exact .closed (h.wrap (by decide) (.refl _))
  | returnValue h _ ih => exact .closed (h.wrap (by decide) (ih.lays rfl))
  | continueLoop h => exact .closed (h.leaf (by decide) (h.passBy (by decide) (.refl _)))
  | breakLoop h => exact .closed (h.leaf (by decide) (h.passBy (by decide) (.refl _)))
  | exprStatement _ ih => exact .closed (ih.lays rfl)
  -- expressions
  | letExpr _ _ ih => exact .closed (ih.lays rfl)
  | expr _ ih => exact .closed (ih.lays rfl)
  | operand _ ih => exact .closed (ih.lays (Phrase.isOpen_operand _ _))
  | binary _ hop _ ih ih' =>
    have hrhs := (step_advance _).passBy (Level.ne_eof_of_operator? hop)
      (ih'.lays (Phrase.isOpen_operand _ _))
    exact .closed (.through ((ih.lays rfl).append (lays_word_cons.2 hrhs)) rfl rfl)
  | not h _ ih => exact .closed (h.wrap (by decide) (lays_word_cons.2 (ih.lays rfl)))
  | negation _ ih => exact .closed (ih.lays rfl)
  | plus h _ ih => exact .closed (h.wrap (by decide) (lays_word_cons.2 (ih.lays rfl)))
  | minus h _ ih => exact .closed (h.wrap (by decide) (lays_word_cons.2 (ih.lays rfl)))
  | signed _ ih => exact .closed (ih.lays rfl)
  | base _ ih => exact .closed (ih.lays rfl)
  | power _ h _ ih ih' =>
    have hexponent := h.passBy (by decide) (ih'.lays rfl)
    exact .closed (.through ((ih.lays rfl).append (lays_word_cons.2 hexponent)) rfl rfl)
  | atom _ ih => exact .closed (ih.lays rfl)
  | member _ h h' ih =>
    have hname : Lays source _ _ _ := h.passBy (by decide) (h'.layName (.refl _))
    exact .closed (.through ((ih.lays rfl).append hname) rfl rfl)
  | call _ h _ ih ih' =>
    have hargs := h.passBy (by decide) (ih'.lays rfl)
    exact .closed (.spanFrom (by simpa using (ih.lays rfl).append hargs) rfl)
  -- literals, names and brackets
  | int h _ => exact .closed (h.leafWord (by decide) rfl)
  | float h _ => exact .closed (h.leafWord (by decide) rfl)
  | text h => exact .closed (h.leafWord (by decide) rfl)
  | true_ h => exact .closed (h.leafWord (by decide) rfl)
  | false_ h => exact .closed (h.leafWord (by decide) rfl)
  | null h => exact .closed (h.leafWord (by decide) rfl)
  | access h => exact .closed (h.leaf (by decide) (h.layName (.refl _)))
  | assign h hop _ ih =>
    have hvalue := (step_advance _).passBy (AssignOp.ne_eof_of_ofToken? hop) (ih.lays rfl)
    exact .closed (.through (h.layName (lays_word_cons.2 hvalue)) rfl rfl)
  | memberAssign h _ _ hop _ ih ih' =>
    have hvalue := (step_advance _).passBy (AssignOp.ne_eof_of_ofToken? hop) (ih'.lays rfl)
    exact .closed (.through (h.layName ((ih.lays rfl).append (lays_word_cons.2 hvalue))) rfl
      (by rw [Form.contents, spans_append]; exact List.getLast?_concat))
  | noSegment => exact .closed (.refl _)
  | segment h h' _ ih => exact .closed (h.passBy (by decide) (h'.layName (ih.lays rfl)))
  | group h _ h' ih =>
    have hinner := (ih.lays rfl).append (h'.passBy (by decide) (.refl _))
    exact .closed (h.passBy (by decide) hinner)
  | list h _ ih => exact .closed (h.wrap (by decide) (by simpa using ih.lays rfl))
  | object h _ ih => exact .closed (h.wrap (by decide) (by simpa using ih.lays rfl))
  | @entry _ _ _ _ kind _ hkind h h' _ ih =>
    have hne : kind ≠ .eof := by rcases hkind with rfl | rfl <;> decide
    exact .closed (h.lay hne (.inr rfl) (h'.passBy (by decide) (ih.lays rfl)))
  | noItem _ h => exact .closed (lays_behindNewlines.append (h.passBy nofun (.refl _)))
  | sequence _ ih => exact .closed (lays_behindNewlines.append (ih.lays rfl))
  | lastItem _ _ h ih =>
    exact .closed (by simpa using ih.opens.close lays_behindNewlines h nofun)
  | item _ h _ ih ih' =>
    have hitem := ih.opens.close lays_behindNewlines h nofun
    exact .closed (hitem.append (lays_behindNewlines.append (ih'.lays rfl)))
  -- definitions
  | declaration h h₁ h₂ _ ih =>
    have hvalue := h₂.passBy (by decide) (ih.lays rfl)
    exact .closed (h.wrap (by decide) (h₁.layName (lays_word_cons.2 hvalue)))
  | function h _ h₂ _ _ ihname ihparams ihbody =>
    have hrest := h₂.passBy (by decide) ((ihparams.lays rfl).append (ihbody.lays rfl))
    exact .closed (h.wrap (by decide) (by simpa using (ihname.lays rfl).append hrest))
  | functionAtom _ _ ih => exact .closed (ih.lays rfl)
  | visible hmodifier h _ ih => exact .closed (h.extend nofun (ih.lays rfl))
  | anonymous => exact .closed (.refl _)
  | functionName h => exact .closed (h.layName (.refl _))
  | required h => exact .closed (h.layName (.refl _))
  | optional h h' => exact .closed (h.layName (h'.passBy (by decide) (.refl _)))
  | lastParam _ _ ih => exact .closed (ih.lays rfl)
  | params _ _ h _ ih ih' =>
    exact .closed ((ih.lays rfl).append (h.passBy (by decide) (ih'.lays rfl)))
  | noParam h => exact .closed (h.passBy (by decide) (.refl _))
  | paramList _ h ih =>
    exact .closed (by simpa using (ih.lays rfl).append (h.passBy (by decide) (.refl _)))
  | arrowBody h _ ih => exact .closed (h.passBy (by decide) (ih.lays rfl))
  | blockBody h _ h' ih =>
    exact .closed (h.passBy (by decide) (ih.opens.close (.refl _) h' (by decide)))
  -- bodies and arms
  | block h _ h' ih =>
    exact .closed (h.passBy (by decide) (ih.opens.close (.refl _) h' (by decide)))
  | inline _ ih => exact .closed (ih.lays rfl)
  | blockArm _ h h' _ ih ih' =>
    have hcondition := (ih.lays rfl).append (h.passBy (by decide) (h'.passBy (by decide) (.refl _)))
    exact ⟨hcondition.append_opens ih'.opens, by simp [Body.isBlock]⟩
  | inlineArm _ h _ ih ih' =>
    exact .closed ((ih.lays rfl).append (h.passBy (by decide) (ih'.lays rfl)))
  | lastBlockArm _ h ih => exact .closed (by simpa using ih.opens.close (.refl _) h (by decide))
  | lastInlineArm _ ih => exact .closed (by simpa using ih.lays rfl)
  | elseArm _ h _ ih ih' =>
    exact .closed ((ih.opens.close (.refl _) h (by decide)).append (ih'.lays rfl))
  | arms _ h _ ih ih' =>
    have harm := ih.opens.close (.refl _) h (by decide)
    exact .closed (by simpa using harm.append (ih'.lays rfl))
  | conditional h _ ih => exact .closed (h.wrap (by decide) (ih.lays rfl))
  -- loops
  | forObject h h₁ h₂ h₃ h₄ _ h₆ _ ih ih' =>
    have hrest := h₄.passBy (by decide)
      ((ih.lays rfl).append (h₆.passBy (by decide) (ih'.lays rfl)))
    exact .closed (h.wrap (by decide) (h₁.layName (h₂.passBy (by decide) (h₃.layName hrest))))
  | forList h h₁ h₂ _ h₄ _ ih ih' =>
    have hrest := h₂.passBy (by decide)
      ((ih.lays rfl).append (h₄.passBy (by decide) (ih'.lays rfl)))
    exact .closed (h.wrap (by decide) (h₁.layName hrest))
  | forCount h h₁ h₂ _ h₄ _ h₆ _ ihfirst ihlast ih =>
    have hlast := (ihlast.lays rfl).append (h₆.passBy (by decide) (ih.lays rfl))
    have hrest := h₂.passBy (by decide)
      ((ihfirst.lays rfl).append (h₄.passBy (by decide) hlast))
    exact .closed (h.wrap (by decide) (h₁.layName (lays_word_cons.2 hrest)))
  | forCountStep h h₁ h₂ _ h₄ _ h₆ _ h₈ _ ihfirst ihlast ihstep ih =>
    have hstep := (ihstep.lays rfl).append (h₈.passBy (by decide) (ih.lays rfl))
    have hlast := (ihlast.lays rfl).append (h₆.passBy (by decide) hstep)
    have hrest := h₂.passBy (by decide)
      ((ihfirst.lays rfl).append (h₄.passBy (by decide) hlast))
    exact .closed (h.wrap (by decide) (h₁.layName (lays_word_cons.2 hrest)))
  | whileLoop h _ h₂ _ ih ih' =>
    exact .closed (h.wrap (by decide)
      ((ih.lays rfl).append (h₂.passBy (by decide) (ih'.lays rfl))))
  -- choices and imports
  | blockCase h hnewline hblock ih =>
    exact .closed (h.passBy (by decide) (hblock.lays_of_newline hnewline ih.opens))
  | inlineCase h _ ih => exact .closed (h.passBy (by decide) (ih.lays rfl))
  | noClause h => exact .closed (h.passBy (by decide) (.refl _))
  | caseClause h _ _ _ ihpattern ihbody ih =>
    have hrest := (ihbody.lays rfl).append (lays_behindNewlines.append (ih.lays rfl))
    exact .closed (h.passBy (by decide) ((ihpattern.lays rfl).append hrest))
  | defaultClause h _ _ ihbody ih =>
    have hrest := (ihbody.lays rfl).append (lays_behindNewlines.append (ih.lays rfl))
    exact .closed (h.passBy (by decide) hrest)
  | @switch c c₁ c₂ c' subject clauses otherwise h hsubject _ hclauses hdefaults ih ih' =>
    refine .closed (h.wrap (by decide) fun hc₁ => ?_)
    -- the default is where its span says, since each part starts behind the one before it
    have hc₂ := (passes_behindNewlines (hsubject.covers.passes hc₁.orderly).1).1
    obtain ⟨-, hplaces⟩ := hclauses.covers.placed hc₂
    have hread := (ih.lays rfl).append (lays_behindNewlines.append (ih'.lays rfl))
    simpa [Clause.inOrder_cases hplaces hdefaults] using hread hc₁
  | importAs h _ h₂ h₃ ih =>
    have hname : Lays source _ _ _ := h₂.passBy (by decide) (h₃.layName (.refl _))
    exact .closed (h.wrap (by decide) ((ih.lays rfl).append hname))

/-! ## Programs -/

theorem Tile.Sits.isIn {source : Source} {before after : List Char} {tile : Tile}
    (h : tile.Sits source before after)
    (htext : source.text.toList = before ++ (tile.text ++ after)) :
    tile.token.span.IsIn source := by
  have hle := h.start_le_stop
  rw [text, List.append_assoc, ← List.append_assoc before] at htext
  rw [h.span] at hle ⊢
  exact ⟨rfl, ⟨_, _, htext, rfl⟩, ⟨_, _, htext.trans (List.append_assoc _ _ _).symm, rfl⟩, hle⟩

theorem Tile.Cover.isIn {source : Source} {before : List Char} {tiles : List Tile}
    (h : Tile.Cover source before tiles)
    (htext : source.text.toList = before ++ Tile.textOf tiles) :
    ∀ token ∈ tiles.map (·.token), token.span.IsIn source := by
  induction h with
  | last hsits _ => simpa using hsits.isIn htext
  | next hsits _ _ _ ih =>
    have hrest := ih (htext.trans (List.append_assoc _ _ _).symm)
    exact List.forall_mem_cons.2 ⟨hsits.isIn htext, hrest⟩

/-- The tokens of a text are tidy in front of the first one. -/
theorem Cursor.Tidy.start {source : Source} {first : Token} {rest : List Token}
    (h : tokenize source = .ok (first :: rest)) : (Cursor.start first rest).Tidy source := by
  obtain ⟨tiles, htokens, htext, hcover⟩ := exists_cover h
  have hisIn : ∀ token ∈ first :: rest, token.span.IsIn source := by
    rw [htokens]
    exact hcover.isIn htext
  have hapart : (first :: rest).Pairwise fun s t => s.span.Before t.span := by
    rw [htokens]
    exact hcover.ordered
  have hfirst := hisIn first List.mem_cons_self
  exact ⟨orderly_of_tokenize h, hisIn, hapart, hfirst.stop, Nat.le_refl _⟩

/-- **Spans nest.**  Every node of the tree of a source lies in the text of the source, and its
names and nodes lie in it, one behind the other. -/
theorem spans_nest {source : Source} {tokens : List Token} {root : Node}
    (htokens : tokenize source = .ok tokens) (hparse : Node.parse tokens = .ok root) :
    ∀ node, root.Contains node → node.Nests source := by
  obtain ⟨first, rest, c, rfl, hderives, -⟩ := Node.derives_of_parse htokens hparse
  exact (hderives.lays.opens (.start htokens)).nests root (by simp)

/-- In this source an empty arm borrows the span of the `else` behind it, an empty function that of
its `end`; a dotted name is read twice, and stands in parentheses. -/
theorem borrowed_spans_nest : ∃ (tokens : List Token) (root : Node),
    tokenize ⟨"main", "if (a.b) then\n  else x.y = 1\npublic func f(p, q?)\n  end"⟩ = .ok tokens ∧
      Node.parse tokens = .ok root ∧
      ∀ node, root.Contains node →
        node.Nests ⟨"main", "if (a.b) then\n  else x.y = 1\npublic func f(p, q?)\n  end"⟩ := by
  have hread : (Node.ofSource ⟨"main",
      "if (a.b) then\n  else x.y = 1\npublic func f(p, q?)\n  end"⟩).toOption.isSome = true := by
    decide +kernel
  obtain ⟨tokens, root, htokens, hparse⟩ := Node.exists_parse hread
  exact ⟨tokens, root, htokens, hparse, spans_nest htokens hparse⟩

end BpScript
