import ChangeImpact.Yaml.Token

/-!
# Places in a YAML text

A cursor is the text that is left with the place where it begins. Line breaks are
made uniform first: a carriage return, with or without a line feed, and the next
line character count as a line feed. The two Unicode separators break lines too,
but keep their identity.
-/

namespace ChangeImpact.Yaml

/-! ## Characters -/

/-- Whether a character may occur in a text at all. -/
def isAllowed (c : Char) : Bool :=
  c == '\t' || c == '\n' || c == '\r' || (0x20 ≤ c.toNat && c.toNat ≤ 0x7E) || c.toNat == 0x85
    || (0xA0 ≤ c.toNat && c.toNat ≤ 0xFFFD) || 0x10000 ≤ c.toNat

/-- A space or a tab. -/
def isBlank (c : Char) : Bool := c == ' ' || c == '\t'

/-- A line break, after breaks have been made uniform. -/
def isBreak (c : Char) : Bool := c == '\n' || c.toNat == 0x2028 || c.toNat == 0x2029

/-- The end of a word: a blank, a line break or the end of the text. -/
def endsWord : Option Char → Bool
  | none => true
  | some c => isBlank c || isBreak c

/-- The end of a line: a line break or the end of the text. -/
def endsLine : Option Char → Bool
  | none => true
  | some c => isBreak c

/-- A letter, a digit, an underscore or a hyphen. -/
def isNameChar (c : Char) : Bool := c.isAlphanum || c == '_' || c == '-'

def uniformBreaks : List Char → List Char
  | '\r' :: '\n' :: rest => '\n' :: uniformBreaks rest
  | c :: rest => (if c == '\r' || c.toNat == 0x85 then '\n' else c) :: uniformBreaks rest
  | [] => []

/-- Whether a marker between documents is next, three times the same character. -/
def startsMarker (mark : Char) : List Char → Bool
  | a :: b :: c :: rest => a == mark && b == mark && c == mark && endsWord rest.head?
  | _ => false

def startsAnyMarker (cs : List Char) : Bool := startsMarker '-' cs || startsMarker '.' cs

/-! ## Cursors -/

structure Cursor where
  rest : List Char
  index : Nat := 0
  line : Nat := 0
  column : Nat := 0

namespace Cursor

def peek (cur : Cursor) (ahead : Nat) : Option Char := cur.rest[ahead]?

def skip (cur : Cursor) (count : Nat) : Cursor :=
  { cur with
    rest := cur.rest.drop count, index := cur.index + count, column := cur.column + count }

def skipBreak (cur : Cursor) : Cursor :=
  { rest := cur.rest.drop 1, index := cur.index + 1, line := cur.line + 1, column := 0 }

/-- The characters from here that pass a test, and the cursor behind them. -/
def span (cur : Cursor) (test : Char → Bool) : List Char × Cursor :=
  let cs := cur.rest.takeWhile test
  (cs, cur.skip cs.length)

def skipWhile (cur : Cursor) (test : Char → Bool) : Cursor := (cur.span test).2

/-- Move over blanks and a comment up to the end of the line, and over the line break. None if
something else is left on the line. -/
def skipLineRest? (cur : Cursor) : Option Cursor :=
  let cur := cur.skipWhile isBlank
  let cur := if cur.peek 0 = some '#' then cur.skipWhile (!isBreak ·) else cur
  match cur.peek 0 with
  | none => some cur
  | some c => if isBreak c then some cur.skipBreak else none

theorem length_skip_lt {cur : Cursor} {count : Nat} (hc : 0 < count) (h : cur.rest ≠ []) :
    (cur.skip count).rest.length < cur.rest.length := by
  have : 0 < cur.rest.length := List.length_pos_iff.2 h
  simp only [skip, List.length_drop]
  omega

theorem length_skipBreak_lt {cur : Cursor} (h : cur.rest ≠ []) :
    cur.skipBreak.rest.length < cur.rest.length := by
  have : 0 < cur.rest.length := List.length_pos_iff.2 h
  simp only [skipBreak, List.length_drop]
  omega

theorem length_skip_le (cur : Cursor) (count : Nat) :
    (cur.skip count).rest.length ≤ cur.rest.length := by
  simp [skip]

end Cursor

end ChangeImpact.Yaml
