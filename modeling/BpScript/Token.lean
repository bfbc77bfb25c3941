import BpScript.Source

/-!
# Tokens

The words of a script.  A token has a kind, the stretch of source it was read from, and a lexeme:
the characters of a name, keyword or number, the contents of a string, and nothing for symbols.

* `Symbol.spelling`, `Keyword.spelling` — how symbols and keywords are written.
* `Keyword.ofSpelling?` — the keyword a word spells, if it is reserved.
* `Token.display` — what messages call a token.
-/

namespace BpScript

/-- Brackets, separators and operators. -/
inductive Symbol where
  | leftParen
  | rightParen
  | leftSquare
  | rightSquare
  | leftBrace
  | rightBrace
  | comma
  | colon
  | dot
  | question
  | arrow
  | plus
  | minus
  | star
  | slash
  | caret
  | equal
  | plusEqual
  | minusEqual
  | equalEqual
  | bangEqual
  | greater
  | greaterEqual
  | less
  | lessEqual
  deriving DecidableEq, Repr, Inhabited

namespace Symbol

/-- How the symbol is written. -/
def spelling : Symbol → String
  | leftParen => "("
  | rightParen => ")"
  | leftSquare => "["
  | rightSquare => "]"
  | leftBrace => "\x7b"
  | rightBrace => "\x7d"
  | comma => ","
  | colon => ":"
  | dot => "."
  | question => "?"
  | arrow => "=>"
  | plus => "+"
  | minus => "-"
  | star => "*"
  | slash => "/"
  | caret => "^"
  | equal => "="
  | plusEqual => "+="
  | minusEqual => "-="
  | equalEqual => "=="
  | bangEqual => "!="
  | greater => ">"
  | greaterEqual => ">="
  | less => "<"
  | lessEqual => "<="

end Symbol

/-- The reserved words. -/
inductive Keyword where
  | let_
  | and_
  | or_
  | not_
  | if_
  | then_
  | elif_
  | else_
  | for_
  | to_
  | step_
  | of_
  | while_
  | func_
  | end_
  | return_
  | continue_
  | break_
  | import_
  | as_
  | public_
  | private_
  | switch_
  | case_
  | default_
  | true_
  | false_
  | null_
  deriving DecidableEq, Repr, Inhabited

namespace Keyword

/-- How the keyword is written. -/
def spelling : Keyword → String
  | let_ => "let"
  | and_ => "and"
  | or_ => "or"
  | not_ => "not"
  | if_ => "if"
  | then_ => "then"
  | elif_ => "elif"
  | else_ => "else"
  | for_ => "for"
  | to_ => "to"
  | step_ => "step"
  | of_ => "of"
  | while_ => "while"
  | func_ => "func"
  | end_ => "end"
  | return_ => "return"
  | continue_ => "continue"
  | break_ => "break"
  | import_ => "import"
  | as_ => "as"
  | public_ => "public"
  | private_ => "private"
  | switch_ => "switch"
  | case_ => "case"
  | default_ => "default"
  | true_ => "true"
  | false_ => "false"
  | null_ => "null"

/-- Every keyword, in the order they are declared. -/
def all : List Keyword :=
  [.let_, .and_, .or_, .not_, .if_, .then_, .elif_, .else_, .for_, .to_, .step_, .of_,
   .while_, .func_, .end_, .return_, .continue_, .break_, .import_, .as_, .public_,
   .private_, .switch_, .case_, .default_, .true_, .false_, .null_]

/-- The keyword that `word` spells, if it is reserved. -/
def ofSpelling? (word : String) : Option Keyword :=
  all.find? (·.spelling = word)

theorem mem_all (k : Keyword) : k ∈ all := by
  cases k <;> decide

theorem ofSpelling?_spelling (k : Keyword) : ofSpelling? k.spelling = some k := by
  cases k <;> decide

end Keyword

/-- The sorts of tokens.  A newline token is also what a semicolon reads as. -/
inductive TokenKind where
  | symbol (symbol : Symbol)
  | keyword (keyword : Keyword)
  | int
  | float
  | string
  | ident
  | newline
  | eof
  deriving DecidableEq, Repr, Inhabited

namespace TokenKind

/-- What messages call a token of this kind. -/
def display : TokenKind → String
  | symbol s => s!"'{s.spelling}'"
  | keyword k => s!"'{k.spelling}'"
  | int => "int"
  | float => "float"
  | string => "string"
  | ident => "identifier"
  | newline => "newline"
  | eof => "end of file"

end TokenKind

/-- A word of the source.  `lexeme` holds the characters of names, keywords and numbers and the
contents of strings; it is empty for everything else. -/
structure Token where
  kind : TokenKind
  span : Span
  lexeme : String
  deriving DecidableEq, Repr, Inhabited

namespace Token

/-- What messages call this token: its lexeme if it has one, else its kind. -/
def display (t : Token) : String :=
  if t.lexeme.isEmpty then t.kind.display else t.lexeme

end Token

end BpScript
