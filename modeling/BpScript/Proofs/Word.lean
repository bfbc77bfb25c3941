import Mathlib
import BpScript.Number
import BpScript.Tree

/-!
# Words

What a token says, leaving out where it stands.  Trees are compared with token lists through the
words they are made of: a word fits every token that says it.

* `Word.Fits` — the tokens that say a word.
* `TokenKind.isContent` — the tokens that leave a trace in a tree: literals, names and operators.
* `BinaryOp.word`, `UnaryOp.word`, `AssignOp.word` — how operators are written.
-/

namespace BpScript

/-- What a token says. -/
inductive Word where
  | symbol (symbol : Symbol)
  | keyword (keyword : Keyword)
  | number (value : Float)
  | text (value : String)
  | ident (name : String)
  /-- The key of an entry, which may be written as a name or as a string. -/
  | key (name : String)
  | newline
  | eof

namespace Word

/-- The tokens that say a word.  A number is any numeral with its value. -/
def Fits : Word → Token → Prop
  | symbol s, t => t.kind = .symbol s
  | keyword k, t => t.kind = .keyword k
  | number x, t => (t.kind = .int ∨ t.kind = .float) ∧ Number.parse? t.lexeme = some x
  | text s, t => t.kind = .string ∧ t.lexeme = s
  | ident name, t => t.kind = .ident ∧ t.lexeme = name
  | key name, t => (t.kind = .ident ∨ t.kind = .string) ∧ t.lexeme = name
  | newline, t => t.kind = .newline
  | eof, t => t.kind = .eof

end Word

/-- Whether a token of this kind stands for an operator. -/
def TokenKind.isOperator (kind : TokenKind) : Bool :=
  (BinaryOp.ofToken? kind).isSome || (UnaryOp.ofToken? kind).isSome ||
    (AssignOp.ofToken? kind).isSome

/-- Whether a token of this kind leaves a trace in a tree: literals, names and operators do. -/
def TokenKind.isContent : TokenKind → Bool
  | .int | .float | .string | .ident => true
  | .keyword .true_ | .keyword .false_ | .keyword .null_ => true
  | kind => kind.isOperator

/-- Whether a symbol closes a bracket. -/
def Symbol.isClosing : Symbol → Bool
  | rightParen | rightSquare | rightBrace => true
  | _ => false

/-! ## Operators -/

/-- How the operator is written. -/
def BinaryOp.word : BinaryOp → Word
  | add => .symbol .plus
  | subtract => .symbol .minus
  | multiply => .symbol .star
  | divide => .symbol .slash
  | power => .symbol .caret
  | equal => .symbol .equalEqual
  | notEqual => .symbol .bangEqual
  | less => .symbol .less
  | greater => .symbol .greater
  | lessEqual => .symbol .lessEqual
  | greaterEqual => .symbol .greaterEqual
  | and => .keyword .and_
  | or => .keyword .or_

/-- How the operator is written. -/
def UnaryOp.word : UnaryOp → Word
  | plus => .symbol .plus
  | minus => .symbol .minus
  | not => .keyword .not_

/-- How the assignment is written. -/
def AssignOp.word : AssignOp → Word
  | set => .symbol .equal
  | add => .symbol .plusEqual
  | subtract => .symbol .minusEqual

theorem BinaryOp.fits_word_iff {op : BinaryOp} {t : Token} :
    op.word.Fits t ↔ BinaryOp.ofToken? t.kind = some op := by
  constructor
  · intro h
    cases op
    all_goals
      simp only [word, Word.Fits] at h
      rw [h]
      rfl
  · intro h
    unfold ofToken? at h
    split at h
    case h_14 => cases h
    all_goals
      cases h
      assumption

theorem AssignOp.fits_word_iff {op : AssignOp} {t : Token} :
    op.word.Fits t ↔ AssignOp.ofToken? t.kind = some op := by
  constructor
  · intro h
    cases op
    all_goals
      simp only [word, Word.Fits] at h
      rw [h]
      rfl
  · intro h
    unfold ofToken? at h
    split at h
    case h_4 => cases h
    all_goals
      cases h
      assumption

end BpScript
