import ChangeImpact.Text.Letters

/-!
# Tokens of Java source

A source text is a sequence of tokens with layout (blanks and comments) between
them. A token remembers the layout in front of it, so tokens lose nothing of the
source and a stretch of tokens can be written back as it stood.

The closing angle bracket is always a token of its own: whether two of them in a
row close two argument lists or shift a number, only the grammar can tell.

## Main definitions

* `Token`, `Token.Kind`: a token, its layout and its kind.
* `Token.textOf`: a stretch of tokens as it stood in the source.
* `Position.after`: row and column behind a stretch of tokens.
-/

namespace ChangeImpact.Java

inductive Token.Kind where
  /-- An identifier or a keyword: which of the two, the grammar decides. -/
  | word
  | number
  | character
  /-- A string or a text block without embedded expressions. -/
  | string
  /-- A string up to its first embedded expression. -/
  | templateHead
  /-- A string between two embedded expressions. -/
  | templateMiddle
  /-- A string after its last embedded expression. -/
  | templateTail
  /-- A separator or an operator. -/
  | symbol
  /-- A character that begins no token. -/
  | stray
deriving DecidableEq, Inhabited

structure Token where
  layout : List Char := []
  kind : Token.Kind
  text : String
deriving DecidableEq, Inhabited

namespace Token

def isWord (t : Token) : Bool := t.kind == .word

def isWordOf (t : Token) (text : String) : Bool := t.kind == .word && t.text == text

def isSymbol (t : Token) (text : String) : Bool := t.kind == .symbol && t.text == text

/-- Whether nothing stands between a token and the one before. -/
def adjacent (t : Token) : Bool := t.layout.isEmpty

/-- Tokens with all their layout, as they stood in the source. -/
def source : List Token → List Char
  | [] => []
  | t :: ts => t.layout ++ t.text.toList ++ source ts

/-- A stretch of tokens as it stood in the source, without the layout in front of it. -/
def textOf : List Token → String
  | [] => ""
  | t :: ts => String.ofList (t.text.toList ++ source ts)

end Token

/-- A place in a text; both numbers count from one, and columns count bytes of UTF-8. -/
structure Position where
  row : Nat := 1
  column : Nat := 1
deriving DecidableEq, Inhabited

namespace Position

/-- The position behind a character. Only a line feed ends a row. -/
def step (p : Position) (c : Char) : Position :=
  if c = '\n' then ⟨p.row + 1, 1⟩ else ⟨p.row, p.column + c.utf8Size⟩

def after (ts : List Token) : Position := (Token.source ts).foldl step {}

def text (p : Position) : String := toString p.row ++ ":" ++ toString p.column

end Position

end ChangeImpact.Java
