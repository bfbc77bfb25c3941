import BpScript.Proofs.Tiling

/-!
# Reading undoes spelling

Tokens can be spelled out: symbols and keywords in one way, names and numbers by themselves, strings
between either quote and with more than one way to write some of their characters.  A text in which
spelled tokens stand one behind the other, each followed by a blank or by the end of the text, is
read back as those tokens.

The argument is local.  A reading looks at most one character past what it takes
(`Lexeme.read_spelled`), and there it finds a blank or nothing, which no token goes on with.

* `WritesChar`, `WritesString` — the ways to write a string.
* `Spelling` — the ways to write a token.
* `Spaced` — tokens with blanks in between.
* **`tokenize_spaced`** — such a text is read back.
-/

namespace BpScript

/-! ## Spellings -/

/-- The ways to write a character between two quotes.  The quote and the backslash stand behind a
backslash; a newline and a tab may be written as they are or as escapes. -/
inductive WritesChar (quote : Char) : Char → List Char → Prop where
  | plain {c : Char} : c ≠ quote → c ≠ '\\' → WritesChar quote c [c]
  | quote : WritesChar quote quote ['\\', quote]
  | backslash : WritesChar quote '\\' ['\\', '\\']
  | newline : WritesChar quote '\n' ['\\', 'n']
  | tab : WritesChar quote '\t' ['\\', 't']

/-- The ways to write the characters of a string, one after the other. -/
inductive WritesString (quote : Char) : (contents written : List Char) → Prop where
  | nil : WritesString quote [] []
  | cons {c : Char} {cs front rest : List Char} : WritesChar quote c front →
      WritesString quote cs rest → WritesString quote (c :: cs) (front ++ rest)

/-- The ways to write a token.  The token that marks the end of a text is not written. -/
inductive Spelling : TokenKind → String → List Char → Prop where
  | symbol (s : Symbol) : Spelling (.symbol s) "" s.spelling.toList
  | newline : Spelling .newline "" ['\n']
  | semicolon : Spelling .newline "" [';']
  | keyword (k : Keyword) : Spelling (.keyword k) k.spelling k.spelling.toList
  | ident {letter : Char} {more : List Char} : letter.isAlpha = true →
      (∀ c ∈ more, c.isAlphanum = true ∨ c = '_') →
      (∀ k : Keyword, String.ofList (letter :: more) ≠ k.spelling) →
      Spelling .ident (String.ofList (letter :: more)) (letter :: more)
  | int {digit : Char} {more : List Char} : (∀ c ∈ digit :: more, c.isDigit = true) →
      Spelling .int (String.ofList (digit :: more)) (digit :: more)
  | float {digit : Char} {more fraction : List Char} : (∀ c ∈ digit :: more, c.isDigit = true) →
      (∀ c ∈ fraction, c.isDigit = true) →
      Spelling .float (String.ofList (digit :: more ++ '.' :: fraction))
        (digit :: more ++ '.' :: fraction)
  | string {quote : Char} {contents written : List Char} : quote = '"' ∨ quote = '\'' →
      WritesString quote contents written →
      Spelling .string (String.ofList contents) (quote :: written ++ [quote])

/-- A blank or the end of the text stands at the front. -/
def Gapped (text : List Char) : Prop :=
  ∀ c ∈ text.head?, isBlank c = true

/-- Tokens that are written one behind the other, with blanks between any two of them.  There may be
blanks in front of the first one and behind the last one. -/
inductive Spaced : List (TokenKind × String) → List Char → Prop where
  | nil : Spaced [] []
  | blank {c : Char} {words : List (TokenKind × String)} {text : List Char} : isBlank c = true →
      Spaced words text → Spaced words (c :: text)
  | word {kind : TokenKind} {lexeme : String} {written text : List Char}
      {words : List (TokenKind × String)} : Spelling kind lexeme written → Gapped text →
      Spaced words text → Spaced ((kind, lexeme) :: words) (written ++ text)

/-! ## Strings -/

/-- What is written between two quotes ends at the second one. -/
theorem WritesString.splitQuoted {quote : Char} (hquote : quote ≠ '\\')
    {contents written : List Char}
    (h : WritesString quote contents written) (text : List Char) :
    Lexeme.splitQuoted quote false (written ++ quote :: text) = (written, quote :: text) := by
  induction h with
  | nil => simp [Lexeme.splitQuoted]
  | cons hchar _ ih => cases hchar <;> simp_all [Lexeme.splitQuoted, hquote.symm]

namespace Lexeme

theorem unescape_cons {c : Char} (hc : c ≠ '\\') (cs : List Char) :
    unescape (c :: cs) = c :: unescape cs := by
  conv_lhs => unfold unescape
  split <;> simp_all

theorem unescape_escaped (c : Char) (cs : List Char) :
    unescape ('\\' :: c :: cs) = unescapeChar c :: unescape cs := rfl

end Lexeme

/-- What is written between two quotes stands for the contents. -/
theorem WritesString.unescape {quote : Char} (hquote : quote = '"' ∨ quote = '\'')
    {contents written : List Char} (h : WritesString quote contents written) :
    Lexeme.unescape written = contents := by
  induction h with
  | nil => rfl
  | cons hchar _ ih =>
    cases hchar with
    | plain _ hc => rw [List.singleton_append, Lexeme.unescape_cons hc, ih]
    | quote =>
      rcases hquote with rfl | rfl <;>
        simp [Lexeme.unescape_escaped, Lexeme.unescapeChar, ih]
    | backslash | newline | tab => simp [Lexeme.unescape_escaped, Lexeme.unescapeChar, ih]

/-! ## One token -/

/-- Keywords are words. -/
theorem Keyword.exists_letter (k : Keyword) : ∃ letter more, k.spelling.toList = letter :: more ∧
    letter.isAlpha = true ∧ ∀ c ∈ more, isNameRest c = true := by
  cases k <;> exact ⟨_, _, rfl, rfl, List.all_eq_true.1 rfl⟩

theorem Gapped.nil : Gapped [] := by simp [Gapped]

/-- A run of characters ends where the first other one stands. -/
theorem takeWhile_run {p : Char → Bool} {run text : List Char} (hrun : ∀ c ∈ run, p c = true)
    (htext : ∀ c ∈ text.head?, p c = false) :
    (run ++ text).takeWhile p = run ∧ (run ++ text).dropWhile p = text := by
  rw [List.takeWhile_append_of_pos hrun, List.dropWhile_append_of_pos hrun]
  cases text with
  | nil => simp
  | cons c text => simp [htext c rfl]

/-- A gap ends every run of characters that are no blanks. -/
theorem Gapped.stops {p : Char → Bool} {text : List Char} (h : Gapped text)
    (hp : ∀ c, isBlank c = true → p c = false) : ∀ c ∈ text.head?, p c = false :=
  fun c hc => hp c (h c hc)

theorem isBlank_cases {c : Char} (h : isBlank c = true) : c = ' ' ∨ c = '\t' ∨ c = '\r' := by
  simpa [isBlank, or_assoc] using h

theorem isDigit_of_isBlank (c : Char) (h : isBlank c = true) : c.isDigit = false := by
  rcases isBlank_cases h with rfl | rfl | rfl <;> rfl

theorem isNameRest_of_isBlank (c : Char) (h : isBlank c = true) : isNameRest c = false := by
  rcases isBlank_cases h with rfl | rfl | rfl <;> rfl

theorem isBlank_of_isAlpha {c : Char} (h : c.isAlpha = true) : isBlank c = false := by
  by_contra hblank
  rcases isBlank_cases (Bool.eq_true_of_not_eq_false hblank) with rfl | rfl | rfl <;> cases h

namespace Lexeme

/-- No letter and no digit is a token by itself. -/
theorem single?_of_isAlphanum {c : Char} (hc : c.isAlphanum = true) : single? c = none := by
  unfold single?
  split
  case h_16 => rfl
  all_goals simp at hc

/-- Letters start words. -/
theorem read_letter {c : Char} (hc : c.isAlpha = true) (cs : List Char) :
    read c cs = readWord c cs := by
  unfold read
  split
  case h_16 =>
    have hsingle : single? c = none := single?_of_isAlphanum (by simp [Char.isAlphanum, hc])
    simp [hsingle, isNameStart, hc]
  all_goals simp at hc

/-- Digits start numbers. -/
theorem read_digit {c : Char} (hc : c.isDigit = true) (cs : List Char) :
    read c cs = readNumber c cs := by
  unfold read
  split
  case h_16 =>
    have hsingle : single? c = none := single?_of_isAlphanum (by simp [Char.isAlphanum, hc])
    have halpha : isNameStart c = false := by
      simp only [isNameStart, Char.isAlpha, Char.isUpper, Char.isLower, Char.isDigit] at hc ⊢
      grind
    simp [hsingle, halpha, hc]
  all_goals simp at hc

/-- A string ends behind its second quote. -/
theorem read_quoted {quote : Char} {contents written : List Char}
    (hquote : quote = '"' ∨ quote = '\'') (h : WritesString quote contents written)
    (text : List Char) :
    read quote (written ++ [quote] ++ text) =
      ⟨.ok (.string, String.ofList contents), quote :: written ++ [quote], text⟩ := by
  have hslash : quote ≠ '\\' := by rcases hquote with rfl | rfl <;> decide
  have hread : readString quote (written ++ quote :: text) =
      ⟨.ok (.string, String.ofList contents), quote :: written ++ [quote], text⟩ := by
    simp [readString, h.splitQuoted hslash, h.unescape hquote]
  rw [List.append_assoc, List.singleton_append]
  rcases hquote with rfl | rfl <;> exact hread

/-- A word ends where no character follows that it could go on with. -/
theorem readWord_run {letter : Char} {more text : List Char}
    (hmore : ∀ c ∈ more, isNameRest c = true) (htext : ∀ c ∈ text.head?, isNameRest c = false) :
    readWord letter (more ++ text) =
      ⟨.ok (match Keyword.ofSpelling? (String.ofList (letter :: more)) with
          | some k => .keyword k
          | none => .ident, String.ofList (letter :: more)), letter :: more, text⟩ := by
  obtain ⟨htake, hdrop⟩ := takeWhile_run hmore htext
  rewrite [readWord, htake, hdrop]
  rfl

/-- A number without a point ends where neither a digit nor a point follows. -/
theorem readNumber_run {digit : Char} {more text : List Char}
    (hmore : ∀ c ∈ more, c.isDigit = true) (htext : ∀ c ∈ text.head?, c.isDigit = false)
    (hpoint : text.head? ≠ some '.') :
    readNumber digit (more ++ text) =
      ⟨.ok (.int, String.ofList (digit :: more)), digit :: more, text⟩ := by
  obtain ⟨htake, hdrop⟩ := takeWhile_run hmore htext
  rw [readNumber, htake, hdrop]
  split
  · exact absurd rfl hpoint
  · rfl

/-- A number with a point ends where no digit follows, also directly behind the point. -/
theorem readNumber_fraction {digit : Char} {more fraction text : List Char}
    (hmore : ∀ c ∈ more, c.isDigit = true) (hfraction : ∀ c ∈ fraction, c.isDigit = true)
    (htext : ∀ c ∈ text.head?, c.isDigit = false) :
    readNumber digit (more ++ '.' :: fraction ++ text) =
      ⟨.ok (.float, String.ofList (digit :: more ++ '.' :: fraction)),
        digit :: (more ++ '.' :: fraction), text⟩ := by
  obtain ⟨htake, hdrop⟩ := takeWhile_run hfraction htext
  have hpoint : Char.isDigit '.' = false := rfl
  simp [readNumber, List.takeWhile_append_of_pos hmore, List.dropWhile_append_of_pos hmore, hpoint,
    htake, hdrop]

/-- A symbol that could go on with a second character does not find it in a gap. -/
theorem read_symbol {text : List Char} (htext : Gapped text) (s : Symbol) :
    ∃ c cs, s.spelling.toList = c :: cs ∧
    read c (cs ++ text) = ⟨.ok (.symbol s, ""), c :: cs, text⟩ := by
  cases text with
  | nil => cases s <;> exact ⟨_, _, rfl, rfl⟩
  | cons c text =>
    rcases isBlank_cases (htext c rfl) with rfl | rfl | rfl <;>
      cases s <;> exact ⟨_, _, rfl, rfl⟩

/-- **A reading stops in front of a gap.**  Symbols that go on with a second character, numbers and
words look one character further than what they take, and a blank is none that they could go on
with. -/
theorem read_spelled {kind : TokenKind} {lexeme : String} {written text : List Char}
    (htext : Gapped text) (h : Spelling kind lexeme written) :
    ∃ c cs, written = c :: cs ∧ read c (cs ++ text) = ⟨.ok (kind, lexeme), c :: cs, text⟩ := by
  cases h with
  | symbol s => exact read_symbol htext s
  | newline | semicolon => exact ⟨_, _, rfl, rfl⟩
  | keyword k =>
    obtain ⟨letter, more, hk, hletter, hmore⟩ := k.exists_letter
    have hspelling : String.ofList (letter :: more) = k.spelling := by
      rw [← hk, String.ofList_toList]
    refine ⟨letter, more, hk, ?_⟩
    rw [read_letter hletter, readWord_run hmore (htext.stops isNameRest_of_isBlank), hspelling,
      Keyword.ofSpelling?_spelling]
  | @ident letter more hletter hmore hkeyword =>
    refine ⟨letter, more, rfl, ?_⟩
    rw [read_letter hletter, readWord_run (by simpa [isNameRest] using hmore)
      (htext.stops isNameRest_of_isBlank)]
    cases hk : Keyword.ofSpelling? (String.ofList (letter :: more)) with
    | none => rfl
    | some k => exact absurd (Keyword.spelling_of_ofSpelling? hk) (hkeyword k)
  | @int digit more hdigits =>
    obtain ⟨hdigit, hmore⟩ := List.forall_mem_cons.1 hdigits
    have hpoint : text.head? ≠ some '.' := fun hhead => absurd (htext '.' hhead) (by decide)
    refine ⟨digit, more, rfl, ?_⟩
    rw [read_digit hdigit, readNumber_run hmore (htext.stops isDigit_of_isBlank) hpoint]
  | @float digit more fraction hdigits hfraction =>
    obtain ⟨hdigit, hmore⟩ := List.forall_mem_cons.1 hdigits
    refine ⟨digit, more ++ '.' :: fraction, rfl, ?_⟩
    rw [read_digit hdigit, readNumber_fraction hmore hfraction (htext.stops isDigit_of_isBlank)]
  | @string quote contents written hquote hwritten =>
    exact ⟨quote, _, rfl, read_quoted hquote hwritten text⟩

end Lexeme

/-- A spelled token starts with no blank, and with a slash only where it is nothing else. -/
theorem Spelling.exists_head {kind : TokenKind} {lexeme : String} {written : List Char}
    (h : Spelling kind lexeme written) :
    ∃ c cs, written = c :: cs ∧ isBlank c = false ∧ (c = '/' → cs = []) := by
  cases h with
  | symbol s => cases s <;> exact ⟨_, _, rfl, rfl, by decide⟩
  | newline | semicolon => exact ⟨_, _, rfl, rfl, by decide⟩
  | keyword k =>
    obtain ⟨letter, more, hk, hletter, -⟩ := k.exists_letter
    exact ⟨letter, more, hk, isBlank_of_isAlpha hletter, by rintro rfl; simp at hletter⟩
  | ident hletter =>
    exact ⟨_, _, rfl, isBlank_of_isAlpha hletter, by rintro rfl; simp at hletter⟩
  | int hdigits | float hdigits =>
    have hdigit := hdigits _ List.mem_cons_self
    refine ⟨_, _, rfl, ?_, by rintro rfl; simp at hdigit⟩
    exact Bool.eq_false_iff.2 fun hblank => by simp [isDigit_of_isBlank _ hblank] at hdigit
  | string hquote =>
    rcases hquote with rfl | rfl <;> exact ⟨_, _, rfl, rfl, by simp⟩

/-- No filler stands in front of a spelled token: a slash is not the first of two. -/
theorem splitFiller_spelled {kind : TokenKind} {lexeme : String} {written text : List Char}
    (h : Spelling kind lexeme written) (htext : Gapped text) :
    splitFiller false (written ++ text) = ([], written ++ text) := by
  obtain ⟨c, cs, rfl, hblank, hslash⟩ := h.exists_head
  rw [List.cons_append, splitFiller]
  · simp [hblank]
  · rintro more rfl hmore
    rw [hslash rfl, List.nil_append] at hmore
    exact absurd (htext '/' (by simp [hmore])) (by decide)

/-! ## A text -/

namespace Scanner

/-- What is read depends only on what stands behind the filler. -/
theorem steps_congr {s t : Scanner} (h : s.skipFiller = t.skipFiller) : s.steps = t.steps := by
  cases hrest : t.skipFiller.rest with
  | nil => rw [steps_of_nil hrest, steps_of_nil (h ▸ hrest), h]
  | cons c cs => rw [steps_of_cons hrest, steps_of_cons (h ▸ hrest), h]

/-- A blank is skipped. -/
theorem steps_blank {source : Source} {place : Position} {c : Char} {text : List Char}
    (hc : isBlank c = true) :
    steps ⟨source, place, c :: text⟩ = steps ⟨source, place.advance c, text⟩ := by
  apply steps_congr
  have hsplit : splitFiller false (c :: text) = (splitFiller false text).map (c :: ·) id := by
    rw [splitFiller, if_pos hc]
    rintro more rfl
    cases hc
  simp [skipFiller, hsplit]

/-- **A scanner reads spaced tokens back,** wherever it stands.  It takes the text blank by blank
and token by token, as `Spaced` lays it out. -/
theorem steps_spaced {words : List (TokenKind × String)} {text : List Char} (h : Spaced words text)
    (source : Source) (place : Position) : ∃ tokens : List Token,
      steps ⟨source, place, text⟩ = tokens.map .ok ∧
        tokens.map (fun token => (token.kind, token.lexeme)) = words ++ [(.eof, "")] := by
  induction h generalizing place with
  | nil =>
    refine ⟨[⟨.eof, ⟨source, place, place⟩, ""⟩], ?_, rfl⟩
    exact steps_of_nil (s := ⟨source, place, []⟩) rfl
  | blank hc _ ih =>
    rw [steps_blank hc]
    exact ih _
  | @word kind lexeme written text words hword hgap _ ih =>
    have hskip : skipFiller ⟨source, place, written ++ text⟩ =
        ⟨source, place, written ++ text⟩ := by
      simp [skipFiller, splitFiller_spelled hword hgap]
    obtain ⟨c, cs, rfl, hread⟩ := Lexeme.read_spelled hgap hword
    have hrest : (skipFiller ⟨source, place, c :: cs ++ text⟩).rest = c :: (cs ++ text) := by
      rw [hskip, List.cons_append]
    obtain ⟨tokens, hsteps, hwords⟩ := ih (place.after (c :: cs))
    refine ⟨⟨kind, ⟨source, place, place.after (c :: cs)⟩, lexeme⟩ :: tokens, ?_, by simp [hwords]⟩
    rw [steps_of_cons hrest, hskip, hread, List.map_cons, ← hsteps]
    rfl

end Scanner

/-- Outcomes without an error are gathered. -/
theorem mapM_id_map_ok (tokens : List Token) :
    (tokens.map (Except.ok (ε := Diagnostic))).mapM id = .ok tokens := by
  induction tokens with
  | nil => rfl
  | cons token tokens ih =>
    rw [List.map_cons, List.mapM_cons, ih]
    rfl

/-- **Reading undoes spelling.**  Tokens that are spelled out, with blanks in between, are read
back: the same kinds and lexemes in the same order, and behind them the token that marks the end. -/
theorem tokenize_spaced (source : Source) {words : List (TokenKind × String)}
    (h : Spaced words source.text.toList) :
    ∃ tokens : List Token, tokenize source = .ok tokens ∧
      tokens.map (fun token => (token.kind, token.lexeme)) = words ++ [(.eof, "")] := by
  obtain ⟨tokens, hsteps, hwords⟩ := Scanner.steps_spaced h source .origin
  refine ⟨tokens, ?_, hwords⟩
  show (Scanner.start source).steps.mapM id = _
  rw [Scanner.start, hsteps, mapM_id_map_ok]

/-- A number with a bare point, two slashes apart, and a string with a quote, a backslash, slashes
and a newline in it. -/
theorem tokenize_spaced_string :
    Spaced [(.float, "1."), (.symbol .slash, ""), (.symbol .slash, ""), (.string, "'\\//\n")]
      "1. /\t/ '\\'\\\\//\\n'".toList ∧
    ∃ tokens : List Token, tokenize ⟨"main", "1. /\t/ '\\'\\\\//\\n'"⟩ = .ok tokens ∧
      tokens.map (fun token => (token.kind, token.lexeme)) =
        [(.float, "1."), (.symbol .slash, ""), (.symbol .slash, ""), (.string, "'\\//\n"),
          (.eof, "")] := by
  have hstring : WritesString '\'' ['\'', '\\', '/', '/', '\n']
      ['\\', '\'', '\\', '\\', '/', '/', '\\', 'n'] :=
    .cons .quote <| .cons .backslash <| .cons (.plain (by decide) (by decide)) <|
      .cons (.plain (by decide) (by decide)) <| .cons .newline .nil
  have hfloat : Spelling .float "1." ['1', '.'] :=
    .float (List.forall_mem_singleton.2 rfl) (by simp)
  have hgap {c : Char} (hc : isBlank c = true) (text : List Char) : Gapped (c :: text) := by
    simpa [Gapped] using hc
  have hspaced : Spaced
      [(.float, "1."), (.symbol .slash, ""), (.symbol .slash, ""), (.string, "'\\//\n")]
      "1. /\t/ '\\'\\\\//\\n'".toList := by
    have htext : "1. /\t/ '\\'\\\\//\\n'".toList = ['1', '.'] ++ ' ' :: (['/'] ++ '\t' :: (['/'] ++
        ' ' :: ('\'' :: ['\\', '\'', '\\', '\\', '/', '/', '\\', 'n'] ++ ['\''] ++ []))) := by
      decide
    rw [htext]
    exact .word hfloat (hgap rfl _) <| .blank rfl <| .word (.symbol .slash) (hgap rfl _) <|
      .blank rfl <| .word (.symbol .slash) (hgap rfl _) <| .blank rfl <|
      .word (.string (.inr rfl) hstring) .nil .nil
  obtain ⟨tokens, hread, hwords⟩ := tokenize_spaced ⟨"main", "1. /\t/ '\\'\\\\//\\n'"⟩ hspaced
  exact ⟨hspaced, tokens, hread, hwords⟩

end BpScript
