import BpScript.Proofs.Spelling

/-!
# Reading stops at the first offence

When a text cannot be read, the diagnostic names the first character that no token can start with.
What stands before that character is a text that can be read, and gives the tokens that had been
read before the error.

Cutting a text could change how it is read, since words, numbers, symbols, strings and comments all
look at what follows them.  They look no further than one character (`Lexeme.read_cut`,
`splitFiller_cut`), so a cut behind a token, or behind the blanks that follow it, changes nothing.

* `Scanner.Reads` — a scanner reads some tokens and stands behind them; `Scanner.Reads.cut` says
  that what it read does not depend on what is left.
* `Tile.Strip` — the tiles of the tokens that were read.
* `Offends` — what can stop the reading; `FirstOffence` — the text around the place where it stops.
* **`tokenize_error`** — a text that cannot be read has a first offence.
-/

namespace BpScript

/-! ## Cutting the text -/

/-- Where the filler of a text ends does not depend on what is cut off further behind. -/
theorem splitFiller_cut {inComment : Bool} {filler text cut : List Char}
    (h : splitFiller inComment (filler ++ text) = (filler, text)) (hcut : cut <+: text) :
    splitFiller inComment (filler ++ cut) = (filler, cut) := by
  generalize hcs : filler ++ text = cs at h
  fun_induction splitFiller inComment cs generalizing filler with
  | case1 inComment =>
    obtain ⟨rfl, rfl⟩ := List.append_eq_nil_iff.1 hcs
    rw [List.prefix_nil.1 hcut]
    cases inComment <;> rfl
  | case2 cs =>
    cases h
    cases cut with
    | nil => rfl
    | cons d cut =>
      obtain ⟨rfl, -⟩ := List.cons_prefix_cons.1 hcut
      rfl
  | case3 c cs hc ih =>
    rcases hsplit : splitFiller true cs with ⟨words, rest⟩
    rw [hsplit] at h ih
    cases h
    rw [List.cons_append, splitFiller, if_neg hc, ih (List.cons.inj hcs).2 rfl]
    rfl
  | case4 cs ih =>
    rcases hsplit : splitFiller true cs with ⟨words, rest⟩
    rw [hsplit] at h ih
    cases h
    rw [List.cons_append, List.cons_append, splitFiller, ih (by simpa using hcs) rfl]
    rfl
  | case5 c cs hslash hc ih =>
    rcases hsplit : splitFiller false cs with ⟨blanks, rest⟩
    rw [hsplit] at h ih
    cases h
    rw [List.cons_append, splitFiller, if_pos hc, ih (List.cons.inj hcs).2 rfl]
    · rfl
    · rintro more rfl
      cases hc
  | case6 c cs hslash hc =>
    cases h
    cases cut with
    | nil => rfl
    | cons d cut =>
      obtain ⟨rfl, htail⟩ := List.cons_prefix_cons.1 hcut
      rw [List.nil_append, splitFiller, if_neg hc]
      rintro more rfl rfl
      obtain ⟨further, rfl⟩ := htail
      exact hslash _ rfl rfl

theorem forall_head?_cut {P : Char → Prop} {text cut : List Char} (h : ∀ c ∈ text.head?, P c)
    (hcut : cut <+: text) : ∀ c ∈ cut.head?, P c := by
  obtain ⟨back, rfl⟩ := hcut
  cases cut with
  | nil => simp
  | cons d cut => exact h

theorem forall_head?_dropWhile (p : Char → Bool) (cs : List Char) :
    ∀ c ∈ (cs.dropWhile p).head?, p c = false := by
  intro c hc
  have h := List.head?_dropWhile_not p cs
  rw [Option.mem_def.1 hc] at h
  simpa using h

namespace Lexeme

/-- Where a string ends does not depend on what is cut off behind it. -/
theorem splitQuoted_cut {quote : Char} {escaped : Bool} {contents text cut : List Char}
    (h : splitQuoted quote escaped (contents ++ text) = (contents, text)) (hcut : cut <+: text) :
    splitQuoted quote escaped (contents ++ cut) = (contents, cut) := by
  generalize hcs : contents ++ text = cs at h
  fun_induction splitQuoted quote escaped cs generalizing contents with
  | case1 escaped =>
    obtain ⟨rfl, rfl⟩ := List.append_eq_nil_iff.1 hcs
    rw [List.prefix_nil.1 hcut]
    cases escaped <;> rfl
  | case2 c cs ih =>
    rcases hsplit : splitQuoted quote false cs with ⟨front, rest⟩
    rw [hsplit] at h ih
    cases h
    rw [List.cons_append, splitQuoted, ih (List.cons.inj hcs).2 rfl]
    rfl
  | case3 cs =>
    cases h
    cases cut with
    | nil => rfl
    | cons d cut =>
      obtain ⟨rfl, -⟩ := List.cons_prefix_cons.1 hcut
      simp [splitQuoted]
  | case4 c cs hc ih =>
    rcases hsplit : splitQuoted quote (c = '\\') cs with ⟨front, rest⟩
    rw [hsplit] at h ih
    cases h
    rw [List.cons_append, splitQuoted, if_neg hc, ih (List.cons.inj hcs).2 rfl]
    rfl

section

variable {found : TokenKind × String} {more text cut : List Char} (hcut : cut <+: text)

include hcut

theorem readString_cut {quote : Char}
    (h : readString quote (more ++ text) = ⟨.ok found, quote :: more, text⟩) :
    readString quote (more ++ cut) = ⟨.ok found, quote :: more, cut⟩ := by
  rcases hsplit : splitQuoted quote false (more ++ text) with ⟨contents, rest⟩
  obtain ⟨hfound, hmore, hrest⟩ : (.string, String.ofList (unescape contents)) = found ∧
      contents ++ rest.take 1 = more ∧ rest.drop 1 = text := by
    simpa [readString, hsplit] using h
  cases rest with
  | nil =>
    -- Without a second quote the string runs to the end of the text, and nothing is cut off.
    rw [List.drop_nil] at hrest
    subst hrest
    rw [List.prefix_nil.1 hcut]
    exact h
  | cons d rest =>
    subst hmore hrest
    rw [List.append_assoc, List.take_append_drop] at hsplit
    have hsplit' := splitQuoted_cut hsplit (List.cons_prefix_cons.2 ⟨rfl, hcut⟩)
    simp [readString, hsplit', hfound]

theorem readWord_cut {letter : Char}
    (h : readWord letter (more ++ text) = ⟨.ok found, letter :: more, text⟩) :
    readWord letter (more ++ cut) = ⟨.ok found, letter :: more, cut⟩ := by
  obtain ⟨hfound, hmore, htext⟩ : _ ∧ (more ++ text).takeWhile isNameRest = more ∧
      (more ++ text).dropWhile isNameRest = text := by
    simpa [readWord] using h
  have hrun : ∀ c ∈ more, isNameRest c = true := hmore ▸ fun c => List.mem_takeWhile_imp
  have hstop := htext ▸ forall_head?_dropWhile isNameRest (more ++ text)
  rw [readWord_run hrun hstop] at h
  rw [readWord_run hrun (forall_head?_cut hstop hcut), (Lexeme.mk.inj h).1]

theorem readNumber_cut {digit : Char}
    (h : readNumber digit (more ++ text) = ⟨.ok found, digit :: more, text⟩) :
    readNumber digit (more ++ cut) = ⟨.ok found, digit :: more, cut⟩ := by
  have hwhole : ∀ c ∈ (more ++ text).takeWhile Char.isDigit, c.isDigit = true :=
    fun c => List.mem_takeWhile_imp
  unfold readNumber at h
  split at h
  · next rest hpoint =>
    have hfraction : ∀ c ∈ rest.takeWhile Char.isDigit, c.isDigit = true :=
      fun c => List.mem_takeWhile_imp
    simp only [Lexeme.mk.injEq, List.cons_append, List.cons.injEq, true_and] at h
    obtain ⟨hfound, hmore, htext⟩ := h
    have hstop := htext ▸ forall_head?_dropWhile Char.isDigit rest
    generalize (more ++ text).takeWhile Char.isDigit = whole at *
    generalize rest.takeWhile Char.isDigit = fraction at *
    subst hmore
    rw [readNumber_fraction hwhole hfraction (forall_head?_cut hstop hcut), ← hfound]
    rfl
  · next hpoint =>
    simp only [Lexeme.mk.injEq, List.cons.injEq, true_and] at h
    obtain ⟨hfound, hmore, htext⟩ := h
    have hstop := htext ▸ forall_head?_dropWhile Char.isDigit (more ++ text)
    rw [hmore] at hwhole hfound
    have hhead : ∀ c ∈ text.head?, c ≠ '.' := by
      rintro c hc rfl
      obtain ⟨rest, hrest⟩ := List.head?_eq_some_iff.1 hc
      exact hpoint rest (htext.trans hrest)
    have hcut' := forall_head?_cut hhead hcut
    rw [readNumber_run hwhole (forall_head?_cut hstop hcut) fun hc => hcut' _ hc rfl, hfound]

end

theorem read_single {c : Char} {kind : TokenKind} (h : single? c = some kind) (cs : List Char) :
    read c cs = plain kind [c] cs := by
  unfold read
  split
  case h_16 => rw [h]
  all_goals cases h

/-- **A reading looks no further than one character** behind what it takes. -/
theorem read_cut {c : Char} {found : TokenKind × String} {more text cut : List Char}
    (h : read c (more ++ text) = ⟨.ok found, c :: more, text⟩) (hcut : cut <+: text) :
    read c (more ++ cut) = ⟨.ok found, c :: more, cut⟩ := by
  unfold read at h
  split at h
  case h_1 | h_3 | h_5 | h_7 | h_9 | h_10 | h_12 =>
    cases h
    rfl
  case h_2 hnext | h_4 hnext | h_6 hnext | h_8 hnext =>
    cases h
    cases cut with
    | nil => rfl
    | cons d cut =>
      obtain ⟨back, rfl⟩ := hcut
      have hd : d ≠ '=' := by
        rintro rfl
        exact hnext _ rfl
      simp [read, plain, hd]
  case h_11 hequal harrow =>
    cases h
    cases cut with
    | nil => rfl
    | cons d cut =>
      obtain ⟨back, rfl⟩ := hcut
      have hd : d ≠ '=' := by
        rintro rfl
        exact hequal _ rfl
      have hd' : d ≠ '>' := by
        rintro rfl
        exact harrow _ rfl
      simp [read, plain, hd, hd']
  case h_13 => cases h
  case h_14 => exact readString_cut hcut h
  case h_15 => exact readString_cut hcut h
  case h_16 =>
    split at h
    · next hsingle =>
      cases h
      exact read_single hsingle cut
    · split at h
      · next hletter => exact (read_letter hletter _).trans (readWord_cut hcut h)
      · split at h
        · next hdigit => exact (read_digit hdigit _).trans (readNumber_cut hcut h)
        · cases h

/-- A reading takes the character in front of it, and perhaps more. -/
theorem exists_taken (c : Char) (cs : List Char) :
    ∃ more, (read c cs).taken = c :: more ∧ cs = more ++ (read c cs).rest := by
  have hsplit := read_split c cs
  cases htaken : (read c cs).taken with
  | nil => exact absurd htaken (read_taken_ne_nil c cs)
  | cons d more =>
    rw [htaken, List.cons_append] at hsplit
    obtain ⟨rfl, hrest⟩ := List.cons.inj hsplit
    exact ⟨more, rfl, hrest.symm⟩

/-- What cannot be read, and why. -/
theorem read_eq_error {c : Char} {cs : List Char} {fault : LexFault}
    (h : (read c cs).reading = .error fault) :
    (c = '!' ∧ cs.head? ≠ some '=' ∧ fault = .loneBang) ∨
      (fault = .illegal c ∧ ∀ more, (read c more).reading = .error (.illegal c)) := by
  unfold read at h
  split at h
  case h_13 hnext =>
    cases h
    refine .inl ⟨rfl, ?_, rfl⟩
    intro hhead
    obtain ⟨rest, rfl⟩ := List.head?_eq_some_iff.1 hhead
    exact hnext rest rfl
  case h_16 =>
    split at h
    · cases h
    · split at h
      · cases h
      · split at h
        · unfold readNumber at h
          split at h <;> cases h
        · cases h
          refine .inr ⟨rfl, fun more => ?_⟩
          unfold read
          split <;> simp_all
  all_goals cases h

end Lexeme

/-! ## Reading a part of the text -/

/-- Tiles that lie side by side between `before` and `after`, where none marks the end of a text. -/
inductive Tile.Strip (source : Source) : (before : List Char) → List Tile → (after : List Char) →
    Prop where
  | nil {before after : List Char} : Strip source before [] after
  | next {before after : List Char} {tile : Tile} {tiles : List Tile} :
      tile.Sits source before (textOf tiles ++ after) → tile.token.kind ≠ .eof →
      Strip source (before ++ tile.text) tiles after → Strip source before (tile :: tiles) after

/-- The same token, read from another source. -/
def Token.inSource (token : Token) (source : Source) : Token :=
  { token with span := { token.span with source } }

namespace Scanner

/-- Reading some tokens leads from one scanner to another, which stands behind the last of them. -/
inductive Reads : Scanner → List Token → Scanner → Prop where
  | refl (s : Scanner) : Reads s [] s
  | step {s t : Scanner} {c : Char} {cs : List Char} {token : Token} {tokens : List Token} :
      s.skipFiller.rest = c :: cs → s.skipFiller.outcome (Lexeme.read c cs) = .ok token →
      Reads (s.skipFiller.past (Lexeme.read c cs)) tokens t → Reads s (token :: tokens) t

theorem Reads.steps {s t : Scanner} {tokens : List Token} (h : Reads s tokens t) :
    s.steps = tokens.map .ok ++ t.steps := by
  induction h with
  | refl s => rfl
  | step hrest htoken _ ih => rw [steps_of_cons hrest, htoken, ih]; rfl

/-- Before the first error, there are tokens. -/
theorem exists_reads : ∀ (s : Scanner) {e : Diagnostic}, s.steps.mapM id = .error e →
    ∃ (tokens : List Token) (t : Scanner) (c : Char) (cs : List Char), Reads s tokens t ∧
      t.skipFiller.rest = c :: cs ∧ t.skipFiller.outcome (Lexeme.read c cs) = .error e := by
  intro s
  induction s using Scanner.steps.induct with
  | case1 s hrest =>
    intro e h
    rw [steps_of_nil hrest] at h
    cases h
  | case2 s c cs hrest lexeme =>
    rename_i ih
    intro e h
    rw [steps_of_cons hrest, List.mapM_cons] at h
    cases houtcome : s.skipFiller.outcome lexeme with
    | error e' =>
      rw [houtcome] at h
      cases h
      exact ⟨[], s, c, cs, .refl s, hrest, houtcome⟩
    | ok token =>
      rw [houtcome] at h
      cases hfurther : (s.skipFiller.past lexeme).steps.mapM id with
      | ok further =>
        rw [hfurther] at h
        cases h
      | error e' =>
        rw [hfurther] at h
        cases h
        obtain ⟨tokens, t, d, ds, hreads, herror⟩ := ih hfurther
        exact ⟨token :: tokens, t, d, ds, .step hrest houtcome hreads, herror⟩

/-- The same scanner in front of another text. -/
def before (s : Scanner) (source : Source) (text : List Char) : Scanner :=
  ⟨source, s.place, text⟩

theorem skipFiller_before {s : Scanner} {text cut : List Char} (hrest : s.skipFiller.rest = text)
    (hcut : cut <+: text) (source : Source) :
    (s.before source (s.filler ++ cut)).skipFiller = s.skipFiller.before source cut := by
  have hsplit : splitFiller false (s.filler ++ text) = (s.filler, text) := by
    rw [← hrest, filler_append]
    rfl
  simp only [before, skipFiller, splitFiller_cut hsplit hcut]
  rfl

/-- **What was read does not depend on what is left.**  When the text is cut behind the place where
the reading stopped, and perhaps some of what follows, the same tokens are read. -/
theorem Reads.cut {s t : Scanner} {tokens : List Token} (h : Reads s tokens t)
    {front back : List Char} (hrest : t.rest = front ++ back) (source : Source) :
    ∃ text, s.rest = text ++ back ∧
      Reads (s.before source text) (tokens.map (·.inSource source)) (t.before source front) := by
  induction h with
  | refl s => exact ⟨front, hrest, .refl _⟩
  | @step s t c cs token tokens hskip htoken _ ih =>
    obtain ⟨text, htext, hreads⟩ := ih hrest
    obtain ⟨more, htaken, hcs⟩ := Lexeme.exists_taken c cs
    obtain ⟨hread, hspan⟩ := outcome_eq_ok htoken
    have hleft : (Lexeme.read c cs).rest = text ++ back := htext
    rw [hleft] at hcs
    have hlexeme : Lexeme.read c cs =
        ⟨.ok (token.kind, token.lexeme), c :: more, text ++ back⟩ := by
      rw [← hread, ← htaken, ← hleft]
    subst hcs
    have hcut := Lexeme.read_cut hlexeme (List.prefix_append text back)
    have hfiller : (s.before source (s.filler ++ c :: (more ++ text))).skipFiller =
        s.skipFiller.before source (c :: (more ++ text)) :=
      skipFiller_before hskip ⟨back, by simp⟩ source
    have hstand : (s.before source (s.filler ++ c :: (more ++ text))).skipFiller.rest =
        c :: (more ++ text) := by
      rw [hfiller]
      rfl
    refine ⟨s.filler ++ c :: (more ++ text), ?_, .step hstand ?_ ?_⟩
    · rw [← s.filler_append, hskip]
      simp
    · rw [hfiller, hcut]
      simp [outcome, before, Token.inSource, hspan, htaken]
    · rw [hfiller, hcut]
      rw [hlexeme] at hreads
      exact hreads

/-- A text of which nothing but filler is left ends there. -/
theorem steps_before_filler (s : Scanner) (source : Source) :
    (s.before source s.filler).steps =
      [.ok ⟨.eof, ⟨source, s.skipFiller.place, s.skipFiller.place⟩, ""⟩] := by
  have hskip := skipFiller_before rfl (List.nil_prefix (l := s.skipFiller.rest)) source
  rw [List.append_nil] at hskip
  rw [steps_of_nil (by rw [hskip]; rfl), hskip]
  rfl

/-- **The text before the place where a reading stopped is read to its end.** -/
theorem Reads.tokenize_cut {source : Source} {tokens : List Token} {t : Scanner}
    (h : Reads (start source) tokens t) {text : List Char}
    (htext : source.text.toList = text ++ t.skipFiller.rest) {cut : Source}
    (hcut : cut = ⟨source.name, String.ofList text⟩) :
    tokenize cut = .ok (tokens.map (·.inSource cut) ++
      [⟨.eof, ⟨cut, t.skipFiller.place, t.skipFiller.place⟩, ""⟩]) := by
  obtain ⟨front, hfront, hreads⟩ := h.cut t.filler_append.symm cut
  obtain rfl : front = text := List.append_cancel_right (hfront.symm.trans htext)
  have hstart : start cut = (start source).before cut front := by
    simp [start, before, hcut]
  show (start cut).steps.mapM id = _
  rw [hstart, hreads.steps, steps_before_filler, ← mapM_id_map_ok, List.map_append]
  rfl

/-- The tokens that were read lie side by side, and the scanner stands behind them. -/
theorem Reads.strip {source : Source} {s t : Scanner} {tokens : List Token} (h : Reads s tokens t)
    {before : List Char} (hs : s.StandsBehind source before) :
    ∃ tiles : List Tile, tokens = tiles.map (·.token) ∧ s.rest = Tile.textOf tiles ++ t.rest ∧
      Tile.Strip source before tiles t.rest ∧
        t.StandsBehind source (before ++ Tile.textOf tiles) := by
  induction h generalizing before with
  | refl s => exact ⟨[], rfl, rfl, .nil, by simpa using hs⟩
  | @step s t c cs token tokens hrest htoken _ ih =>
    have hsits := sits_read hs hrest htoken
    obtain ⟨heof, -⟩ := Lexeme.isSpelled_read c cs _ _ (outcome_eq_ok htoken).1
    obtain ⟨tiles, rfl, hread, hstrip, ht⟩ := ih (hs.skipFiller.past _)
    have hleft : (Lexeme.read c cs).rest = Tile.textOf tiles ++ t.rest := hread
    rw [hleft] at hsits
    refine ⟨⟨s.filler, token, (Lexeme.read c cs).taken⟩ :: tiles, rfl, ?_, .next hsits heof ?_, ?_⟩
    · rw [Tile.textOf_cons, Tile.text, List.append_assoc, List.append_assoc, ← hleft,
        Lexeme.read_split, ← hrest, filler_append]
    · simpa [Tile.text] using hstrip
    · simpa [Tile.text] using ht

end Scanner

/-- The outcome where the reading stops: an exclamation mark without an equals sign, or a character
that is no blank and that no token starts with, which the message names. -/
def Offends (c : Char) (after : List Char) (e : Diagnostic) : Prop :=
  (c = '!' ∧ after.head? ≠ some '=' ∧ e.kind = .expectedCharacter) ∨
    (isBlank c = false ∧ (∀ kind lexeme more, ¬Spelling kind lexeme (c :: more)) ∧
      e.kind = .illegalCharacter ∧ e.message = s!"'{c}'")

theorem isBlank_of_splitFiller {inComment : Bool} {cs rest : List Char} {c : Char}
    (h : (splitFiller inComment cs).2 = c :: rest) : isBlank c = false := by
  fun_induction splitFiller inComment cs with
  | case1 => cases h
  | case2 =>
    cases h
    rfl
  | case3 _ _ _ ih | case4 _ ih | case5 _ _ _ _ ih => exact ih h
  | case6 c cs _ hc =>
    cases h
    simpa using hc

namespace Scanner

theorem outcome_eq_error {s : Scanner} {lexeme : Lexeme} {e : Diagnostic}
    (h : s.outcome lexeme = .error e) : ∃ fault, lexeme.reading = .error fault ∧
      e = { kind := fault.kind, message := fault.message,
            span := ⟨s.source, s.place, s.place.after lexeme.taken⟩ } := by
  unfold outcome at h
  split at h
  · cases h
  · next fault hread =>
    cases h
    exact ⟨fault, hread, rfl⟩

theorem offends_of_outcome {s : Scanner} {c : Char} {cs : List Char} {e : Diagnostic}
    (hrest : s.skipFiller.rest = c :: cs)
    (h : s.skipFiller.outcome (Lexeme.read c cs) = .error e) : Offends c cs e := by
  obtain ⟨fault, hread, rfl⟩ := outcome_eq_error h
  rcases Lexeme.read_eq_error hread with ⟨rfl, hnext, rfl⟩ | ⟨rfl, hillegal⟩
  · exact .inl ⟨rfl, hnext, rfl⟩
  · refine .inr ⟨isBlank_of_splitFiller hrest, ?_, rfl, rfl⟩
    intro kind lexeme more hspelling
    obtain ⟨d, ds, hwritten, hok⟩ := Lexeme.read_spelled .nil hspelling
    cases hwritten
    rw [List.append_nil] at hok
    have herror := hillegal more
    rw [hok] at herror
    cases herror

/-- Only blanks stand between the last token and the offending character: a comment would run up to
a newline, which can be read. -/
theorem blanks_of_outcome {s : Scanner} {c : Char} {cs : List Char} {e : Diagnostic}
    (hrest : s.skipFiller.rest = c :: cs)
    (h : s.skipFiller.outcome (Lexeme.read c cs) = .error e) :
    ∀ b ∈ s.filler, b = ' ' ∨ b = '\t' ∨ b = '\r' := by
  obtain ⟨blanks, comment, hfiller, hblanks, hcomment⟩ := isFiller_splitFiller s.rest rfl
  have hnone : comment = [] := by
    rcases hcomment with hnone | ⟨words, -, -, hstop⟩
    · exact hnone
    · rw [show (splitFiller false s.rest).2 = c :: cs from hrest] at hstop
      obtain rfl : c = '\n' := by simpa using hstop
      cases h
  rw [filler, hfiller, hnone, List.append_nil]
  exact hblanks

end Scanner

/-- How a text that cannot be read is made up: the tiles of the tokens that were read, blanks, the
offending character `c`, at which the error starts, and the rest. -/
structure FirstOffence (source : Source) (e : Diagnostic) (tiles : List Tile) (gap : List Char)
    (c : Char) (after : List Char) : Prop where
  text_eq : source.text.toList = Tile.textOf tiles ++ gap ++ c :: after
  /-- Each tile is complete in front of what follows it: a string is closed, a comment has ended. -/
  strip : Tile.Strip source [] tiles (gap ++ c :: after)
  blanks : ∀ b ∈ gap, b = ' ' ∨ b = '\t' ∨ b = '\r'
  steps_eq : ∃ further : List (Except Diagnostic Token),
    (Scanner.start source).steps = (tiles.map (·.token)).map .ok ++ .error e :: further
  source_eq : e.span.source = source
  start_eq : e.span.start = .behind (Tile.textOf tiles ++ gap)
  /-- What stands before `c` is read as the same tokens at the same places, and nothing more. -/
  tokenize_cut : ∀ cut : Source, cut = ⟨source.name, String.ofList (Tile.textOf tiles ++ gap)⟩ →
    tokenize cut = .ok ((tiles.map (·.token)).map (·.inSource cut) ++
      [⟨.eof, ⟨cut, e.span.start, e.span.start⟩, ""⟩])
  offends : Offends c after e

/-- **Reading stops at the first offence.** -/
theorem tokenize_error {source : Source} {e : Diagnostic} (h : tokenize source = .error e) :
    ∃ (tiles : List Tile) (gap : List Char) (c : Char) (after : List Char),
      FirstOffence source e tiles gap c after := by
  obtain ⟨tokens, t, c, cs, hreads, hrest, herror⟩ := (Scanner.start source).exists_reads h
  obtain ⟨tiles, rfl, htext, hstrip, ht⟩ := hreads.strip (Scanner.standsBehind_start source)
  obtain ⟨fault, -, he⟩ := Scanner.outcome_eq_error herror
  have hleft : t.rest = t.filler ++ c :: cs := by rw [← hrest, t.filler_append]
  have hplace : e.span.start = t.skipFiller.place := by rw [he]
  refine ⟨tiles, t.filler, c, cs, ?_, hleft ▸ hstrip, Scanner.blanks_of_outcome hrest herror, ?_,
    ?_, ?_, ?_, Scanner.offends_of_outcome hrest herror⟩
  · rw [List.append_assoc, ← hleft]
    exact htext
  · exact ⟨(t.skipFiller.past (Lexeme.read c cs)).steps,
      by rw [hreads.steps, Scanner.steps_of_cons hrest, herror]⟩
  · rw [he]
    exact ht.skipFiller.source
  · rw [hplace]
    exact ht.skipFiller.place
  · intro cut hcut
    rw [hplace]
    refine hreads.tokenize_cut ?_ hcut
    rw [List.append_assoc, t.filler_append]
    exact htext

/-- Exclamation marks in a string and in a comment do not offend, the next one does. -/
theorem tokenize_error_bang : ∃ (e : Diagnostic) (tiles : List Tile) (gap : List Char) (c : Char)
    (after : List Char), tokenize ⟨"main", "'!' // !\n = !b"⟩ = .error e ∧
      FirstOffence ⟨"main", "'!' // !\n = !b"⟩ e tiles gap c after := by
  have hread : (tokenize ⟨"main", "'!' // !\n = !b"⟩).toOption = none := by cbv
  cases h : tokenize ⟨"main", "'!' // !\n = !b"⟩ with
  | ok tokens =>
    rw [h] at hread
    cases hread
  | error e =>
    obtain ⟨tiles, gap, c, after, hstop⟩ := tokenize_error h
    exact ⟨e, tiles, gap, c, after, rfl, hstop⟩

end BpScript
