import Mathlib
import BpScript.Token.Scanner

/-!
# The tokens of a text tile it

A text that can be read is cut into tokens and what stands between them.  Each token sits on a slice
of the text, behind a gap; the gaps hold nothing but blanks and comments, and the slices spell the
tokens.  So every character of the text is in one gap or in one slice, and a span says where the
slice is.

* `Position.behind` — the place behind a stretch of text, said without counting character by
  character.  `Position.after_origin` says that counting leads there.
* `IsFiller` — blanks and comments; `Unquoted` — what can stand between two quotes.
* `Spells` — the slices a token can be read from.
* `Tile.Sits` — a token, its gap and its slice, between the text before and the text behind them.
* **`tokenize_tiles_text`** — the tokens of a text, with their tiles.
-/

namespace BpScript

/-! ## Places -/

namespace Position

/-- The place behind the text `before`: on the line with the number of its newlines, in the column
with the number of characters behind the last of them, at the index that is its length in bytes. -/
def behind (before : List Char) : Position where
  line := before.count '\n'
  column := (before.rtakeWhile (· ≠ '\n')).length
  index := (String.ofList before).utf8ByteSize

theorem behind_concat (before : List Char) (c : Char) :
    behind (before ++ [c]) = (behind before).advance c := by
  have hsize : (String.ofList [c]).utf8ByteSize = c.utf8Size := by simp
  by_cases hc : c = '\n'
  · subst hc
    simp [behind, advance, ← hsize]
  · simp [behind, advance, hc]

/-- Reading on from the place behind a text leads to the place behind the longer text. -/
theorem after_behind (before cs : List Char) :
    (behind before).after cs = behind (before ++ cs) := by
  induction cs generalizing before with
  | nil => simp
  | cons c cs ih => rw [after_cons, ← behind_concat, ih, List.append_assoc, List.singleton_append]

theorem after_origin (cs : List Char) : origin.after cs = behind cs :=
  after_behind [] cs

theorem index_behind_append (before cs : List Char) :
    (behind (before ++ cs)).index = (behind before).index + (String.ofList cs).utf8ByteSize := by
  simp [behind]

end Position

/-! ## Gaps -/

/-- Blanks, and behind them at most one comment, which runs up to the newline or the end of the text
that `after` is. -/
def IsFiller (gap after : List Char) : Prop :=
  ∃ blanks comment : List Char, gap = blanks ++ comment ∧
    (∀ c ∈ blanks, c = ' ' ∨ c = '\t' ∨ c = '\r') ∧
    (comment = [] ∨ ∃ words, comment = '/' :: '/' :: words ∧ '\n' ∉ words ∧
      (after = [] ∨ after.head? = some '\n'))

theorem IsFiller.nil (after : List Char) : IsFiller [] after :=
  ⟨[], [], rfl, by simp, .inl rfl⟩

theorem IsFiller.blank {c : Char} {gap after : List Char} (hc : isBlank c = true)
    (h : IsFiller gap after) : IsFiller (c :: gap) after := by
  obtain ⟨blanks, comment, rfl, hblanks, hcomment⟩ := h
  refine ⟨c :: blanks, comment, rfl, ?_, hcomment⟩
  intro d hd
  rcases List.mem_cons.1 hd with rfl | hd
  · simpa [isBlank, or_assoc] using hc
  · exact hblanks d hd

/-- What an open comment takes holds no newline, and leaves nothing or a newline. -/
theorem splitFiller_comment (cs : List Char) :
    '\n' ∉ (splitFiller true cs).1 ∧
      ((splitFiller true cs).2 = [] ∨ (splitFiller true cs).2.head? = some '\n') := by
  induction cs with
  | nil => simp [splitFiller]
  | cons c cs ih =>
    by_cases hc : c = '\n'
    · simp [splitFiller, hc]
    · simpa [splitFiller, hc, Ne.symm hc] using ih

theorem isFiller_splitFiller {inComment : Bool} (cs : List Char) (h : inComment = false) :
    IsFiller (splitFiller inComment cs).1 (splitFiller inComment cs).2 := by
  fun_induction splitFiller inComment cs with
  | case1 => exact .nil _
  | case2 => cases h
  | case3 => cases h
  | case4 cs =>
    obtain ⟨hwords, hstop⟩ := splitFiller_comment cs
    exact ⟨[], _, rfl, by simp, .inr ⟨_, rfl, hwords, hstop⟩⟩
  | case5 c cs _ hblank ih => exact (ih h).blank hblank
  | case6 => exact .nil _

/-! ## Strings -/

/-- Holds no quote that would close a string: every one stands behind the backslash that escapes
it. -/
inductive Unquoted (quote : Char) : List Char → Prop where
  | nil : Unquoted quote []
  | plain {c : Char} {cs : List Char} : c ≠ quote → c ≠ '\\' → Unquoted quote cs →
      Unquoted quote (c :: cs)
  | escape {c : Char} {cs : List Char} : Unquoted quote cs → Unquoted quote ('\\' :: c :: cs)

/-- The string that `slice` spells in front of `after`.  It ends with the quote it starts with; or
the text ends first, perhaps behind a backslash with nothing left to escape. -/
def SpellsString (lexeme : String) (slice after : List Char) : Prop :=
  ∃ (quote : Char) (contents : List Char), (quote = '"' ∨ quote = '\'') ∧
    lexeme.toList = Lexeme.unescape contents ∧
    (slice = quote :: contents ++ [quote] ∧ Unquoted quote contents ∨
      slice = quote :: contents ∧ after = [] ∧
        (Unquoted quote contents ∨ ∃ front, contents = front ++ ['\\'] ∧ Unquoted quote front))

/-- Where the contents of a string end. -/
def StopsAt (quote : Char) (contents rest : List Char) : Prop :=
  (rest.head? = some quote ∧ Unquoted quote contents) ∨
    (rest = [] ∧ (Unquoted quote contents ∨ ∃ front, contents = front ++ ['\\'] ∧
      Unquoted quote front))

theorem StopsAt.plain {quote c : Char} {contents rest : List Char} (hquote : c ≠ quote)
    (hc : c ≠ '\\') (h : StopsAt quote contents rest) : StopsAt quote (c :: contents) rest := by
  rcases h with ⟨hrest, h⟩ | ⟨hrest, h | ⟨front, rfl, h⟩⟩
  · exact .inl ⟨hrest, h.plain hquote hc⟩
  · exact .inr ⟨hrest, .inl (h.plain hquote hc)⟩
  · exact .inr ⟨hrest, .inr ⟨c :: front, rfl, h.plain hquote hc⟩⟩

theorem StopsAt.escape {quote c : Char} {contents rest : List Char}
    (h : StopsAt quote contents rest) : StopsAt quote ('\\' :: c :: contents) rest := by
  rcases h with ⟨hrest, h⟩ | ⟨hrest, h | ⟨front, rfl, h⟩⟩
  · exact .inl ⟨hrest, h.escape⟩
  · exact .inr ⟨hrest, .inl h.escape⟩
  · exact .inr ⟨hrest, .inr ⟨'\\' :: c :: front, rfl, h.escape⟩⟩

/-- A backslash takes the next character along, so the text is walked through in steps of one or two
characters. -/
theorem stopsAt_splitQuoted {quote : Char} (hquote : quote ≠ '\\') : ∀ cs : List Char,
    StopsAt quote (Lexeme.splitQuoted quote false cs).1 (Lexeme.splitQuoted quote false cs).2
  | [] => .inr ⟨rfl, .inl .nil⟩
  | c :: cs => by
    by_cases hc : c = quote
    · rw [Lexeme.splitQuoted, if_pos hc, hc]
      exact .inl ⟨rfl, .nil⟩
    rw [Lexeme.splitQuoted, if_neg hc]
    by_cases hslash : c = '\\'
    · rw [hslash]
      cases cs with
      | nil => exact .inr ⟨rfl, .inr ⟨[], rfl, .nil⟩⟩
      | cons d cs => exact (stopsAt_splitQuoted hquote cs).escape
    · rw [decide_eq_false hslash]
      exact (stopsAt_splitQuoted hquote cs).plain hc hslash

theorem spellsString_readString {quote : Char} (hquote : quote = '"' ∨ quote = '\'')
    (cs : List Char) :
    SpellsString (String.ofList (Lexeme.unescape (Lexeme.splitQuoted quote false cs).1))
      (Lexeme.readString quote cs).taken (Lexeme.readString quote cs).rest := by
  have hslash : quote ≠ '\\' := by rcases hquote with rfl | rfl <;> decide
  have hstop := stopsAt_splitQuoted hslash cs
  refine ⟨quote, (Lexeme.splitQuoted quote false cs).1, hquote, String.toList_ofList, ?_⟩
  simp only [Lexeme.readString]
  generalize Lexeme.splitQuoted quote false cs = parts at hstop ⊢
  obtain ⟨contents, rest⟩ := parts
  rcases hstop with ⟨hrest, h⟩ | ⟨rfl, h⟩
  · cases rest with
    | nil => cases hrest
    | cons d rest =>
      cases hrest
      exact .inl ⟨rfl, h⟩
  · exact .inr ⟨by simp, rfl, h⟩

/-! ## Slices -/

/-- The slices that a token of `kind` can be read from, in front of `after`. -/
def Spells (kind : TokenKind) (lexeme : String) (slice after : List Char) : Prop :=
  match kind with
  | .symbol s => slice = s.spelling.toList
  | .keyword k => slice = lexeme.toList ∧ lexeme = k.spelling
  | .int | .float | .ident => slice = lexeme.toList
  | .newline => slice = ['\n'] ∨ slice = [';']
  | .string => SpellsString lexeme slice after
  | .eof => slice = []

theorem Keyword.spelling_of_ofSpelling? {word : String} {k : Keyword}
    (h : Keyword.ofSpelling? word = some k) : word = k.spelling := by
  unfold Keyword.ofSpelling? at h
  have hfound := List.find?_some h
  exact (of_decide_eq_true hfound).symm

namespace Lexeme

/-- What is read is not the end of the text, and the characters taken spell it. -/
def IsSpelled (lexeme : Lexeme) : Prop :=
  ∀ kind word, lexeme.reading = .ok (kind, word) →
    kind ≠ .eof ∧ Spells kind word lexeme.taken lexeme.rest

theorem isSpelled_readString {quote : Char} (hquote : quote = '"' ∨ quote = '\'')
    (cs : List Char) : (readString quote cs).IsSpelled := by
  intro kind word h
  cases h
  exact ⟨by simp, spellsString_readString hquote cs⟩

theorem isSpelled_readWord (letter : Char) (cs : List Char) : (readWord letter cs).IsSpelled := by
  intro kind word h
  simp only [readWord] at h ⊢
  cases hk : Keyword.ofSpelling? (String.ofList (letter :: cs.takeWhile isNameRest)) with
  | none =>
    rw [hk] at h
    cases h
    exact ⟨by simp, String.toList_ofList.symm⟩
  | some k =>
    rw [hk] at h
    cases h
    exact ⟨by simp, String.toList_ofList.symm, Keyword.spelling_of_ofSpelling? hk⟩

theorem isSpelled_readNumber (digit : Char) (cs : List Char) :
    (readNumber digit cs).IsSpelled := by
  unfold readNumber
  split
  all_goals
    intro kind word h
    cases h
    exact ⟨by simp, String.toList_ofList.symm⟩

theorem isSpelled_single {c : Char} {kind : TokenKind} (h : single? c = some kind)
    (rest : List Char) : (plain kind [c] rest).IsSpelled := by
  intro kind' word hread
  cases hread
  unfold single? at h
  split at h
  case h_16 => cases h
  all_goals
    cases h
    simp [Spells, Symbol.spelling, plain]

/-- Every reading spells its token. -/
theorem isSpelled_read (c : Char) (cs : List Char) : (read c cs).IsSpelled := by
  unfold read
  split
  case h_13 =>
    intro kind word h
    cases h
  case h_14 => exact isSpelled_readString (.inl rfl) _
  case h_15 => exact isSpelled_readString (.inr rfl) _
  case h_16 =>
    split
    · next hsingle => exact isSpelled_single hsingle _
    · split
      · exact isSpelled_readWord _ _
      · split
        · exact isSpelled_readNumber _ _
        · intro kind word h
          cases h
  all_goals
    intro kind word h
    cases h
    simp [Spells, Symbol.spelling, plain]

end Lexeme

/-! ## Tiles -/

/-- A token, with the gap in front of it and the slice of the text it was read from. -/
structure Tile where
  gap : List Char
  token : Token
  slice : List Char

namespace Tile

/-- What a tile covers. -/
def text (tile : Tile) : List Char :=
  tile.gap ++ tile.slice

/-- The text of tiles that lie side by side. -/
def textOf (tiles : List Tile) : List Char :=
  tiles.flatMap text

@[simp] theorem textOf_nil : textOf [] = [] := rfl

@[simp] theorem textOf_cons (tile : Tile) (tiles : List Tile) :
    textOf (tile :: tiles) = tile.text ++ textOf tiles := rfl

/-- How a tile lies between the text before it and the text after it: its gap is filler, its slice
spells the token, and the span of the token is where the slice is.  Both ends of the span are
reached by reading the text in front of them. -/
structure Sits (source : Source) (before after : List Char) (tile : Tile) : Prop where
  gap : IsFiller tile.gap (tile.slice ++ after)
  slice : Spells tile.token.kind tile.token.lexeme tile.slice after
  span : tile.token.span = ⟨source, .behind (before ++ tile.gap),
    .behind (before ++ tile.gap ++ tile.slice)⟩
  reached : tile.token.span = ⟨source, Position.origin.after (before ++ tile.gap),
    Position.origin.after (before ++ tile.gap ++ tile.slice)⟩

/-- Tiles that lie side by side behind `before`.  The last one, and no other, holds the token that
marks the end of the text. -/
inductive Cover (source : Source) : (before : List Char) → List Tile → Prop where
  | last {before : List Char} {tile : Tile} : tile.Sits source before [] →
      tile.token.kind = .eof → Cover source before [tile]
  | next {before : List Char} {tile : Tile} {tiles : List Tile} :
      tile.Sits source before (textOf tiles) → tile.token.kind ≠ .eof → tile.slice ≠ [] →
      Cover source (before ++ tile.text) tiles → Cover source before (tile :: tiles)

variable {source : Source} {before after : List Char} {tile : Tile} {tiles : List Tile}

theorem Sits.start_le_stop (h : tile.Sits source before after) :
    tile.token.span.start.index ≤ tile.token.span.stop.index := by
  rw [h.span, Position.index_behind_append (before ++ tile.gap)]
  exact Nat.le_add_right _ _

theorem Sits.start_lt_stop (h : tile.Sits source before after) (hslice : tile.slice ≠ []) :
    tile.token.span.start.index < tile.token.span.stop.index := by
  have hsize : (String.ofList tile.slice).utf8ByteSize ≠ 0 := by simpa using hslice
  rw [h.span, Position.index_behind_append (before ++ tile.gap)]
  exact Nat.lt_add_of_pos_right (Nat.pos_of_ne_zero hsize)

theorem Sits.le_start (h : tile.Sits source before after) :
    (Position.behind before).index ≤ tile.token.span.start.index := by
  rw [h.span, Position.index_behind_append]
  exact Nat.le_add_right _ _

theorem Sits.stop_eq (h : tile.Sits source before after) :
    tile.token.span.stop = .behind (before ++ tile.text) := by
  rw [h.span, text, List.append_assoc]

namespace Cover

theorem le_start (h : Cover source before tiles) :
    ∀ tile ∈ tiles, (Position.behind before).index ≤ tile.token.span.start.index := by
  induction h with
  | last hsits _ =>
    intro tile htile
    rw [List.mem_singleton.1 htile]
    exact hsits.le_start
  | next hsits _ _ _ ih =>
    intro tile htile
    rcases List.mem_cons.1 htile with rfl | htile
    · exact hsits.le_start
    · have hle := ih tile htile
      rw [Position.index_behind_append] at hle
      omega

theorem start_le_stop (h : Cover source before tiles) :
    ∀ tile ∈ tiles, tile.token.span.start.index ≤ tile.token.span.stop.index := by
  induction h with
  | last hsits _ =>
    intro tile htile
    rw [List.mem_singleton.1 htile]
    exact hsits.start_le_stop
  | next hsits _ _ _ ih =>
    intro tile htile
    rcases List.mem_cons.1 htile with rfl | htile
    · exact hsits.start_le_stop
    · exact ih tile htile

/-- A tile ends where the next ones begin, or before. -/
theorem stop_le_start {tile : Tile} (hsits : tile.Sits source before after)
    (h : Cover source (before ++ tile.text) tiles) :
    ∀ token ∈ tiles.map (·.token), tile.token.span.stop.index ≤ token.span.start.index := by
  intro token htoken
  obtain ⟨next, hnext, rfl⟩ := List.mem_map.1 htoken
  rw [hsits.stop_eq]
  exact h.le_start next hnext

/-- The spans are in order and do not overlap. -/
theorem ordered (h : Cover source before tiles) :
    (tiles.map (·.token)).Pairwise (fun s t => s.span.stop.index ≤ t.span.start.index) := by
  induction h with
  | last => exact List.pairwise_singleton _ _
  | next hsits _ _ hrest ih => exact List.pairwise_cons.2 ⟨stop_le_start hsits hrest, ih⟩

/-- Each token starts behind where the one before it does. -/
theorem starts_ascend (h : Cover source before tiles) :
    (tiles.map (·.token)).Pairwise (fun s t => s.span.start.index < t.span.start.index) := by
  induction h with
  | last => exact List.pairwise_singleton _ _
  | next hsits _ hslice hrest ih =>
    have hlt := hsits.start_lt_stop hslice
    exact List.pairwise_cons.2
      ⟨fun token htoken => hlt.trans_le (stop_le_start hsits hrest token htoken), ih⟩

/-- The last tile is empty, and stands at the end of the text. -/
theorem exists_last (h : Cover source before tiles) :
    ∃ (front : List Token) (last : Token), tiles.map (·.token) = front ++ [last] ∧
      (∀ t ∈ front, t.kind ≠ .eof) ∧ last.kind = .eof ∧
      last.span = ⟨source, .behind (before ++ textOf tiles), .behind (before ++ textOf tiles)⟩ := by
  induction h with
  | @last before tile hsits heof =>
    refine ⟨[], tile.token, rfl, by simp, heof, ?_⟩
    have hslice := hsits.slice
    rw [heof] at hslice
    rw [hsits.span, textOf_cons, text, show tile.slice = [] from hslice]
    simp
  | @next before tile tiles _ heof _ _ ih =>
    obtain ⟨front, last, htokens, hfront, hlast, hspan⟩ := ih
    refine ⟨tile.token :: front, last, by simp [htokens], ?_, hlast, ?_⟩
    · exact List.forall_mem_cons.2 ⟨heof, hfront⟩
    · rw [hspan, textOf_cons, List.append_assoc]

end Cover

end Tile

/-- A list of outcomes without an error starts with a token. -/
theorem mapM_id_cons_eq_ok {x : Except Diagnostic Token} {xs : List (Except Diagnostic Token)}
    {tokens : List Token} (h : (x :: xs).mapM id = .ok tokens) :
    ∃ (first : Token) (further : List Token), x = .ok first ∧ xs.mapM id = .ok further ∧
      tokens = first :: further := by
  rw [List.mapM_cons] at h
  cases x with
  | error e => cases h
  | ok first =>
    cases hfurther : xs.mapM id with
    | error e =>
      rw [hfurther] at h
      cases h
    | ok further =>
      rw [hfurther] at h
      cases h
      exact ⟨first, further, rfl, rfl, rfl⟩

namespace Scanner

/-- A scanner that stands behind the text it has read. -/
structure StandsBehind (s : Scanner) (source : Source) (before : List Char) : Prop where
  source : s.source = source
  place : s.place = .behind before

variable {s : Scanner} {source : Source} {before : List Char}

/-- The filler that a scanner skips. -/
def filler (s : Scanner) : List Char :=
  (splitFiller false s.rest).1

theorem filler_append (s : Scanner) : s.filler ++ s.skipFiller.rest = s.rest :=
  splitFiller_append false s.rest

theorem StandsBehind.skipFiller (h : s.StandsBehind source before) :
    s.skipFiller.StandsBehind source (before ++ s.filler) where
  source := h.source
  place := by
    show s.place.after s.filler = _
    rw [h.place, Position.after_behind]

theorem StandsBehind.past (h : s.StandsBehind source before) (lexeme : Lexeme) :
    (s.past lexeme).StandsBehind source (before ++ lexeme.taken) where
  source := h.source
  place := by
    show s.place.after lexeme.taken = _
    rw [h.place, Position.after_behind]

/-- What a reading without a fault gives. -/
theorem outcome_eq_ok {lexeme : Lexeme} {token : Token} (h : s.outcome lexeme = .ok token) :
    lexeme.reading = .ok (token.kind, token.lexeme) ∧
      token.span = ⟨s.source, s.place, s.place.after lexeme.taken⟩ := by
  unfold outcome at h
  split at h
  · next hread =>
    cases h
    exact ⟨hread, rfl⟩
  · cases h

/-- The tile of the token that is read next. -/
theorem sits_read (hs : s.StandsBehind source before) {c : Char} {cs : List Char} {token : Token}
    (hrest : s.skipFiller.rest = c :: cs)
    (htoken : s.skipFiller.outcome (Lexeme.read c cs) = .ok token) :
    Tile.Sits source before (Lexeme.read c cs).rest
      ⟨s.filler, token, (Lexeme.read c cs).taken⟩ := by
  obtain ⟨hread, hspan⟩ := outcome_eq_ok htoken
  obtain ⟨-, hspells⟩ := Lexeme.isSpelled_read c cs _ _ hread
  have hskip := hs.skipFiller
  rw [hskip.source, hskip.place, Position.after_behind] at hspan
  refine ⟨?_, hspells, hspan, ?_⟩
  · have hgap := isFiller_splitFiller s.rest rfl
    rw [show (splitFiller false s.rest).2 = c :: cs from hrest, ← Lexeme.read_split c cs] at hgap
    exact hgap
  · rw [Position.after_origin, Position.after_origin]
    exact hspan

/-- **The tokens cover what is left of the text.**  The scanner goes from tile to tile: it skips the
gap, and stands behind the slice when it has read a token. -/
theorem steps_cover : ∀ (s : Scanner) {before : List Char} {tokens : List Token},
    s.StandsBehind source before → s.steps.mapM id = .ok tokens →
    ∃ tiles : List Tile, tokens = tiles.map (·.token) ∧ s.rest = Tile.textOf tiles ∧
      Tile.Cover source before tiles := by
  intro s
  induction s using Scanner.steps.induct with
  | case1 s hrest =>
    intro before tokens hs hrun
    rw [steps_of_nil hrest] at hrun
    cases hrun
    have hgap := isFiller_splitFiller s.rest rfl
    have htext := s.filler_append
    rw [hrest, List.append_nil] at htext
    have hskip := hs.skipFiller
    have hspan : s.skipFiller.endToken.span =
        ⟨source, .behind (before ++ s.filler), .behind (before ++ s.filler ++ [])⟩ := by
      show (⟨s.source, s.skipFiller.place, s.skipFiller.place⟩ : Span) = _
      rw [hs.source, hskip.place, List.append_nil]
    refine ⟨[⟨s.filler, s.skipFiller.endToken, []⟩], rfl, by simp [Tile.text, htext], .last ?_ rfl⟩
    refine ⟨?_, rfl, hspan, ?_⟩
    · rw [show splitFiller false s.rest = (s.filler, []) from Prod.ext rfl hrest] at hgap
      exact hgap
    · rw [Position.after_origin, Position.after_origin]
      exact hspan
  | case2 s c cs hrest lexeme =>
    rename_i ih
    intro before tokens hs hrun
    rw [steps_of_cons hrest] at hrun
    obtain ⟨first, further, hfirst, hfurther, rfl⟩ := mapM_id_cons_eq_ok hrun
    obtain ⟨heof, -⟩ := Lexeme.isSpelled_read c cs _ _ (outcome_eq_ok hfirst).1
    have hsits := sits_read hs hrest hfirst
    obtain ⟨tiles, rfl, hcovered, htiles⟩ := ih (hs.skipFiller.past lexeme) hfurther
    have hleft : (Lexeme.read c cs).rest = Tile.textOf tiles := hcovered
    rw [hleft] at hsits
    refine ⟨⟨s.filler, first, lexeme.taken⟩ :: tiles, rfl, ?_, .next hsits heof ?_ ?_⟩
    · rw [Tile.textOf_cons, Tile.text, List.append_assoc, ← hleft, Lexeme.read_split, ← hrest,
        filler_append]
    · exact Lexeme.read_taken_ne_nil c cs
    · rw [Tile.text, ← List.append_assoc]
      exact htiles

theorem standsBehind_start (source : Source) : (start source).StandsBehind source [] :=
  ⟨rfl, rfl⟩

end Scanner

/-- The tiles of a text that can be read. -/
theorem exists_cover {source : Source} {tokens : List Token} (h : tokenize source = .ok tokens) :
    ∃ tiles : List Tile, tokens = tiles.map (·.token) ∧ source.text.toList = Tile.textOf tiles ∧
      Tile.Cover source [] tiles :=
  Scanner.steps_cover _ (Scanner.standsBehind_start source) h

/-- **The tokens of a text tile it.**  Side by side, the tiles make up the text; each gap is filler,
each slice spells its token, and each span is where the slice is.  So the spans are in order and do
not overlap, and the last token, and no other, marks the end of the text. -/
theorem tokenize_tiles_text {source : Source} {tokens : List Token}
    (h : tokenize source = .ok tokens) :
    ∃ tiles : List Tile, tokens = tiles.map (·.token) ∧
      source.text.toList = Tile.textOf tiles ∧ Tile.Cover source [] tiles ∧
      (∀ t ∈ tokens, t.span.start.index ≤ t.span.stop.index) ∧
      tokens.Pairwise (fun s t => s.span.stop.index ≤ t.span.start.index) ∧
      ∃ (front : List Token) (last : Token), tokens = front ++ [last] ∧
        (∀ t ∈ front, t.kind ≠ .eof) ∧ last.kind = .eof ∧
        last.span = ⟨source, .behind source.text.toList, .behind source.text.toList⟩ := by
  obtain ⟨tiles, rfl, htext, hcover⟩ := exists_cover h
  refine ⟨tiles, rfl, htext, hcover, ?_, hcover.ordered, ?_⟩
  · intro token htoken
    obtain ⟨tile, htile, rfl⟩ := List.mem_map.1 htoken
    exact hcover.start_le_stop tile htile
  · rw [htext]
    exact hcover.exists_last

/-- A text with a string left open, behind a comment. -/
theorem open_string_tiles_text : ∃ (tokens : List Token) (tiles : List Tile),
    tokenize ⟨"main", "a += .5 // b\n;'\\'c"⟩ = .ok tokens ∧ tokens = tiles.map (·.token) ∧
      "a += .5 // b\n;'\\'c".toList = Tile.textOf tiles ∧
      Tile.Cover ⟨"main", "a += .5 // b\n;'\\'c"⟩ [] tiles := by
  have hread : (tokenize ⟨"main", "a += .5 // b\n;'\\'c"⟩).toOption.isSome = true := by cbv
  cases htokens : tokenize ⟨"main", "a += .5 // b\n;'\\'c"⟩ with
  | error e =>
    rw [htokens] at hread
    cases hread
  | ok tokens =>
    obtain ⟨tiles, hmap, htext, hcover, -⟩ := tokenize_tiles_text htokens
    exact ⟨tokens, tiles, rfl, hmap, htext, hcover⟩

end BpScript
