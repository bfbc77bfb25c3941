import BpScript.Diagnostic
import BpScript.Token

/-!
# Reading tokens

A text is read from left to right.  Blanks and comments are filler; what follows the filler is one
token, or one of the two things no token can start with.

* `splitFiller` — the blanks and comments at the front of a text, and what follows them.
* `Lexeme.read` — the token at the front of a text, with the characters it takes and the rest.
  `Lexeme.read_split` says that these make up the text, `Lexeme.length_rest_read` that it shrinks.
* `Scanner.steps` — the whole text, going on after errors.
* `tokenize` — the whole text, where the first error wins.  A success ends in one `eof`.
-/

namespace BpScript

/-- Blanks separate tokens and mean nothing else.  A newline is not a blank. -/
def isBlank (c : Char) : Bool :=
  c = ' ' || c = '\t' || c = '\r'

/-- Where names start. -/
def isNameStart (c : Char) : Bool :=
  c.isAlpha

/-- What names go on with. -/
def isNameRest (c : Char) : Bool :=
  c.isAlphanum || c = '_'

/-- Splits `cs` into the filler at its front and the rest.  Filler is blanks, and comments, which
run from two slashes up to the end of the line; `inComment` says that a comment is open. -/
def splitFiller : (inComment : Bool) → List Char → List Char × List Char
  | _, [] => ([], [])
  | true, c :: cs =>
    if c = '\n' then ([], c :: cs)
    else (splitFiller true cs).map (c :: ·) id
  | false, '/' :: '/' :: cs =>
    (splitFiller true cs).map ('/' :: '/' :: ·) id
  | false, c :: cs =>
    if isBlank c then (splitFiller false cs).map (c :: ·) id
    else ([], c :: cs)

/-- Filler and rest make up the text. -/
theorem splitFiller_append (inComment : Bool) (cs : List Char) :
    (splitFiller inComment cs).1 ++ (splitFiller inComment cs).2 = cs := by
  fun_induction splitFiller inComment cs <;> simp_all

/-- What can stop the reading of tokens. -/
inductive LexFault where
  /-- A character that starts no token. -/
  | illegal (c : Char)
  /-- An exclamation mark that no equals sign follows. -/
  | loneBang
  deriving DecidableEq, Repr, Inhabited

namespace LexFault

/-- The kind a fault is reported under. -/
def kind : LexFault → ErrorKind
  | illegal _ => .illegalCharacter
  | loneBang => .expectedCharacter

/-- The text a fault is reported with. -/
def message : LexFault → String
  | illegal c => s!"'{c}'"
  | loneBang => "'=' (after '!')"

end LexFault

/-- One reading at the front of a text: the token's kind and lexeme or a fault, the characters it
takes, and the characters it leaves. -/
structure Lexeme where
  reading : Except LexFault (TokenKind × String)
  taken : List Char
  rest : List Char

namespace Lexeme

/-- Splits the text after an opening quote at the closing one.  A quote after a backslash does not
close; `escaped` says that a backslash has just been read. -/
def splitQuoted (quote : Char) : (escaped : Bool) → List Char → List Char × List Char
  | _, [] => ([], [])
  | true, c :: cs => (splitQuoted quote false cs).map (c :: ·) id
  | false, c :: cs =>
    if c = quote then ([], c :: cs)
    else (splitQuoted quote (c = '\\') cs).map (c :: ·) id

theorem splitQuoted_append (quote : Char) (escaped : Bool) (cs : List Char) :
    (splitQuoted quote escaped cs).1 ++ (splitQuoted quote escaped cs).2 = cs := by
  fun_induction splitQuoted quote escaped cs <;> simp_all

/-- The character that a backslash and `c` stand for. -/
def unescapeChar (c : Char) : Char :=
  if c = 'n' then '\n' else if c = 't' then '\t' else c

/-- What the characters between two quotes stand for.  A backslash at the very end, with nothing
left to escape, stands for nothing. -/
def unescape : List Char → List Char
  | [] => []
  | ['\\'] => []
  | '\\' :: c :: cs => unescapeChar c :: unescape cs
  | c :: cs => c :: unescape cs

/-- The string literal that `quote` opens in front of `cs`.  Without a closing quote it runs to the
end of the text. -/
def readString (quote : Char) (cs : List Char) : Lexeme :=
  let (contents, rest) := splitQuoted quote false cs
  { reading := .ok (.string, String.ofList (unescape contents))
    taken := quote :: contents ++ rest.take 1
    rest := rest.drop 1 }

/-- The number that `digit` starts: digits, and at most one point. -/
def readNumber (digit : Char) (cs : List Char) : Lexeme :=
  let whole := cs.takeWhile Char.isDigit
  match cs.dropWhile Char.isDigit with
  | '.' :: more =>
    let taken := digit :: whole ++ '.' :: more.takeWhile Char.isDigit
    ⟨.ok (.float, String.ofList taken), taken, more.dropWhile Char.isDigit⟩
  | rest =>
    let taken := digit :: whole
    ⟨.ok (.int, String.ofList taken), taken, rest⟩

/-- The name or keyword that `letter` starts. -/
def readWord (letter : Char) (cs : List Char) : Lexeme :=
  let taken := letter :: cs.takeWhile isNameRest
  let word := String.ofList taken
  let kind := match Keyword.ofSpelling? word with
    | some k => .keyword k
    | none => .ident
  ⟨.ok (kind, word), taken, cs.dropWhile isNameRest⟩

/-- A token without a lexeme that takes exactly `taken`. -/
def plain (kind : TokenKind) (taken rest : List Char) : Lexeme :=
  ⟨.ok (kind, ""), taken, rest⟩

/-- The kind of token that `c` alone makes, for characters that never join the next one. -/
def single? : Char → Option TokenKind
  | '(' => some (.symbol .leftParen)
  | ')' => some (.symbol .rightParen)
  | '[' => some (.symbol .leftSquare)
  | ']' => some (.symbol .rightSquare)
  | '\x7b' => some (.symbol .leftBrace)
  | '\x7d' => some (.symbol .rightBrace)
  | ',' => some (.symbol .comma)
  | ':' => some (.symbol .colon)
  | '.' => some (.symbol .dot)
  | '?' => some (.symbol .question)
  | '*' => some (.symbol .star)
  | '/' => some (.symbol .slash)
  | '^' => some (.symbol .caret)
  | ';' => some .newline
  | '\n' => some .newline
  | _ => none

/-- What `c`, the first character after the filler, starts.  Of two symbols that fit, the longer
wins. -/
def read (c : Char) (cs : List Char) : Lexeme :=
  match c, cs with
  | '+', '=' :: cs => plain (.symbol .plusEqual) ['+', '='] cs
  | '+', cs => plain (.symbol .plus) ['+'] cs
  | '-', '=' :: cs => plain (.symbol .minusEqual) ['-', '='] cs
  | '-', cs => plain (.symbol .minus) ['-'] cs
  | '<', '=' :: cs => plain (.symbol .lessEqual) ['<', '='] cs
  | '<', cs => plain (.symbol .less) ['<'] cs
  | '>', '=' :: cs => plain (.symbol .greaterEqual) ['>', '='] cs
  | '>', cs => plain (.symbol .greater) ['>'] cs
  | '=', '=' :: cs => plain (.symbol .equalEqual) ['=', '='] cs
  | '=', '>' :: cs => plain (.symbol .arrow) ['=', '>'] cs
  | '=', cs => plain (.symbol .equal) ['='] cs
  | '!', '=' :: cs => plain (.symbol .bangEqual) ['!', '='] cs
  | '!', cs => ⟨.error .loneBang, '!' :: cs.take 1, cs.drop 1⟩
  | '"', cs => readString '"' cs
  | '\'', cs => readString '\'' cs
  | c, cs =>
    match single? c with
    | some kind => plain kind [c] cs
    | none =>
      if isNameStart c then readWord c cs
      else if c.isDigit then readNumber c cs
      else ⟨.error (.illegal c), [c], cs⟩

theorem readString_split (quote : Char) (cs : List Char) :
    (readString quote cs).taken ++ (readString quote cs).rest = quote :: cs := by
  have h := splitQuoted_append quote false cs
  simp only [readString, List.cons_append, List.append_assoc, List.take_append_drop, h]

theorem readNumber_split (digit : Char) (cs : List Char) :
    (readNumber digit cs).taken ++ (readNumber digit cs).rest = digit :: cs := by
  have h := List.takeWhile_append_dropWhile (p := Char.isDigit) (l := cs)
  unfold readNumber
  split
  · next more hd =>
    have hm := List.takeWhile_append_dropWhile (p := Char.isDigit) (l := more)
    rw [hd] at h
    simp [hm, h]
  · simp [h]

theorem readWord_split (letter : Char) (cs : List Char) :
    (readWord letter cs).taken ++ (readWord letter cs).rest = letter :: cs := by
  simp [readWord, List.takeWhile_append_dropWhile]

/-- A reading splits the text in front of it, and takes at least its first character. -/
theorem read_split (c : Char) (cs : List Char) :
    (read c cs).taken ++ (read c cs).rest = c :: cs := by
  unfold read
  split
  case h_13 => simp only [List.cons_append, List.take_append_drop]
  case h_14 | h_15 => exact readString_split _ _
  case h_16 =>
    split
    · rfl
    · split
      · exact readWord_split c _
      · split
        · exact readNumber_split c _
        · rfl
  all_goals rfl

theorem readNumber_taken_ne_nil (digit : Char) (cs : List Char) :
    (readNumber digit cs).taken ≠ [] := by
  unfold readNumber; split <;> simp

theorem read_taken_ne_nil (c : Char) (cs : List Char) : (read c cs).taken ≠ [] := by
  unfold read
  split
  case h_16 =>
    split
    · simp [plain]
    · split
      · simp [readWord]
      · split
        · exact readNumber_taken_ne_nil c _
        · simp
  all_goals simp [plain, readString]

/-- Every reading leaves less text than it found. -/
theorem length_rest_read (c : Char) (cs : List Char) :
    (read c cs).rest.length < (c :: cs).length := by
  have h := congrArg List.length (read_split c cs)
  have hpos := List.length_pos_iff.2 (read_taken_ne_nil c cs)
  simp only [List.length_append] at h
  omega

end Lexeme

/-- A scanner has read its source up to `place`; `rest` is what is left of the text. -/
structure Scanner where
  source : Source
  place : Position
  rest : List Char

namespace Scanner

/-- The scanner in front of a whole source. -/
def start (source : Source) : Scanner :=
  ⟨source, .origin, source.text.toList⟩

/-- The scanner past the blanks and comments in front of it. -/
def skipFiller (s : Scanner) : Scanner :=
  let (filler, text) := splitFiller false s.rest
  { s with place := s.place.after filler, rest := text }

/-- The scanner past `lexeme`. -/
def past (s : Scanner) (lexeme : Lexeme) : Scanner :=
  { s with place := s.place.after lexeme.taken, rest := lexeme.rest }

/-- What `lexeme` means when the scanner stands in front of it. -/
def outcome (s : Scanner) (lexeme : Lexeme) : Except Diagnostic Token :=
  let span : Span := ⟨s.source, s.place, s.place.after lexeme.taken⟩
  match lexeme.reading with
  | .ok (kind, word) => .ok ⟨kind, span, word⟩
  | .error fault => .error { kind := fault.kind, message := fault.message, span }

/-- The token that marks the end of the text. -/
def endToken (s : Scanner) : Token :=
  ⟨.eof, ⟨s.source, s.place, s.place⟩, ""⟩

theorem length_rest_skipFiller (s : Scanner) : s.skipFiller.rest.length ≤ s.rest.length := by
  have h := congrArg List.length (splitFiller_append false s.rest)
  simp only [List.length_append] at h
  simp only [skipFiller]
  omega

/-- Reads token after token up to the end of the text.  An error does not stop the reading: it goes
on behind the offending characters. -/
def steps (s : Scanner) : List (Except Diagnostic Token) :=
  match _h : s.skipFiller.rest with
  | [] => [.ok s.skipFiller.endToken]
  | c :: cs =>
    let lexeme := Lexeme.read c cs
    s.skipFiller.outcome lexeme :: steps (s.skipFiller.past lexeme)
termination_by s.rest.length
decreasing_by
  have hread := Lexeme.length_rest_read c cs
  have hskip := s.length_rest_skipFiller
  rw [_h] at hskip
  simp only [past]
  omega

/-- At the end of the text there is one step left, which is the end token. -/
theorem steps_of_nil {s : Scanner} (h : s.skipFiller.rest = []) :
    s.steps = [.ok s.skipFiller.endToken] := by
  rw [steps]
  split
  · rfl
  · next hcons => rw [h] at hcons; cases hcons

/-- In front of a character, the next step is what that character starts. -/
theorem steps_of_cons {s : Scanner} {c : Char} {cs : List Char}
    (h : s.skipFiller.rest = c :: cs) :
    s.steps = s.skipFiller.outcome (Lexeme.read c cs) ::
      (s.skipFiller.past (Lexeme.read c cs)).steps := by
  rw [steps]
  split
  · next hnil => rw [h] at hnil; cases hnil
  · next hcons =>
    rw [h] at hcons
    cases hcons
    rfl

end Scanner

/-- The tokens of a source, the last one `eof`, or its first error. -/
def tokenize (source : Source) : Except Diagnostic (List Token) :=
  (Scanner.start source).steps.mapM id

end BpScript
