import ChangeImpact.Yaml.Property

/-!
# From text to tokens

Tokens are taken one after another. A scalar turns out to be a key only when a
colon follows it on its line; the tokens for the key, and for a mapping that begins
there, are then put in front of it. How deep lines are indented decides where blocks
begin and end, except between brackets.

## Main definitions

* `Lexer`: what is known between two tokens.
* `Lexer.step`: take the next token.
* `Token.ofText`: all tokens of a text.
-/

namespace ChangeImpact.Yaml

/-- A place where a key may have begun. -/
structure KeyStart where
  /-- It must be a key, because a new line of a block mapping begins here. -/
  required : Bool
  /-- How many tokens stand before it. -/
  tokensBefore : Nat
  place : Cursor

structure Lexer where
  cursor : Cursor
  /-- The tokens so far, the last one first. -/
  tokens : List Token := []
  /-- Where a key may have begun, between the innermost brackets. -/
  keyStart? : Option KeyStart := none
  /-- The same for each pair of brackets around those. -/
  outerStarts : List (Option KeyStart) := []
  /-- The indentations of the open blocks, the innermost first. -/
  indents : List Nat := []
  /-- Whether a key may begin here. -/
  keyAllowed : Bool := true

namespace Lexer

/-- Whether the cursor stands between brackets. -/
def inFlow (l : Lexer) : Bool := !l.outerStarts.isEmpty

def push (l : Lexer) (t : Token) : Lexer := { l with tokens := t :: l.tokens }

def take (l : Lexer) (t : Token) (length : Nat) : Lexer :=
  { l with tokens := t :: l.tokens, cursor := l.cursor.skip length }

/-- Put a token behind the first so many. -/
def insertAfter (l : Lexer) (count : Nat) (t : Token) : Lexer :=
  let later := l.tokens.length - count
  { l with tokens := l.tokens.take later ++ t :: l.tokens.drop later }

/-! ## Keys -/

def longestKey : Nat := 1024

def dropKeyStart (l : Lexer) : Except Fault Lexer :=
  if l.keyStart?.any KeyStart.required then .error .keyWithoutValue
  else .ok { l with keyStart? := none }

def noteKeyStart (l : Lexer) : Except Fault Lexer := do
  if l.keyAllowed then
    let required := !l.inFlow && l.indents.head? == some l.cursor.column
    let l ← l.dropKeyStart
    return { l with keyStart? := some ⟨required, l.tokens.length, l.cursor⟩ }
  else return l

/-- A key ends on the line where it begins, and is not too long. -/
def isStale (l : Lexer) (k : KeyStart) : Bool :=
  k.place.line < l.cursor.line || k.place.index + longestKey < l.cursor.index

def checkKeyStart (l : Lexer) : Option KeyStart → Except Fault (Option KeyStart)
  | some k => if l.isStale k then if k.required then .error .keyWithoutValue else .ok none
    else .ok (some k)
  | none => .ok none

def checkKeyStarts (l : Lexer) : Except Fault Lexer := do
  let outerStarts ← l.outerStarts.mapM l.checkKeyStart
  let keyStart? ← l.checkKeyStart l.keyStart?
  return { l with keyStart?, outerStarts }

/-! ## Blocks -/

def isDeeper (l : Lexer) (column : Nat) : Bool :=
  match l.indents with
  | [] => true
  | indent :: _ => indent < column

/-- Open a block at a column, unless one is open there; its token goes behind the first so
many. -/
def openBlock (l : Lexer) (column tokensBefore : Nat) (t : Token) : Lexer :=
  if !l.inFlow && l.isDeeper column then
    { l.insertAfter tokensBefore t with indents := column :: l.indents }
  else l

def openBlockHere (l : Lexer) (t : Token) : Lexer :=
  l.openBlock l.cursor.column l.tokens.length t

def deeperBlocks (column : Nat) (indents : List Nat) : Nat :=
  (indents.takeWhile (column < ·)).length

def closeBlocks (l : Lexer) (count : Nat) : Lexer :=
  { l with
    tokens := List.replicate count .blockEnd ++ l.tokens, indents := l.indents.drop count }

def closeDeeperBlocks (l : Lexer) : Lexer :=
  if l.inFlow then l else l.closeBlocks (deeperBlocks l.cursor.column l.indents)

def closeAllBlocks (l : Lexer) : Lexer := if l.inFlow then l else l.closeBlocks l.indents.length

/-! ## Blank space -/

/-- Whether a tab is mere blank space here: not where it could be meant as indentation. -/
def skipsTabs (l : Lexer) : Bool := l.inFlow || !l.keyAllowed

/-- Move over blanks, comments and line breaks to the next token. -/
def skipSpace (l : Lexer) (fuel : Nat) : Lexer :=
  let cur := l.cursor
  let cur := if cur.column == 0 && cur.peek 0 == some '\uFEFF' then cur.skip 1 else cur
  let cur := cur.skipWhile fun c => c == ' ' || (l.skipsTabs && c == '\t')
  let cur := if cur.peek 0 == some '#' then cur.skipWhile (!isBreak ·) else cur
  match fuel, cur.peek 0 with
  | fuel + 1, some c =>
    if isBreak c then
      skipSpace { l with cursor := cur.skipBreak, keyAllowed := l.keyAllowed || !l.inFlow } fuel
    else { l with cursor := cur }
  | _, _ => { l with cursor := cur }

/-! ## Single tokens -/

/-- A directive or a marker between documents closes all blocks. -/
def startDocumentPart (l : Lexer) : Except Fault Lexer := do
  let l ← l.closeAllBlocks.dropKeyStart
  return { l with keyAllowed := false }

def takeDirective (l : Lexer) : Except Fault Lexer := do
  let l ← l.startDocumentPart
  let (t, cursor) ← directive l.cursor
  return { l.push t with cursor }

def takeMarker (l : Lexer) (t : Token) : Except Fault Lexer := do
  return (← l.startDocumentPart).take t 3

def openBracket (l : Lexer) (t : Token) : Except Fault Lexer := do
  let l ← l.noteKeyStart
  return { l with
    outerStarts := l.keyStart? :: l.outerStarts, keyStart? := none, keyAllowed := true }.take t 1

def closeBracket (l : Lexer) (t : Token) : Except Fault Lexer := do
  let l ← l.dropKeyStart
  let l := match l.outerStarts with
    | [] => l
    | outer :: outerStarts => { l with keyStart? := outer, outerStarts }
  return { l with keyAllowed := false }.take t 1

def takeFlowEntry (l : Lexer) : Except Fault Lexer := do
  let l ← l.dropKeyStart
  return { l with keyAllowed := true }.take .flowEntry 1

def takeBlockEntry (l : Lexer) : Except Fault Lexer := do
  if !l.inFlow && !l.keyAllowed then throw .misplacedEntry
  let l ← (l.openBlockHere .blockSequenceStart).dropKeyStart
  return { l with keyAllowed := true }.take .blockEntry 1

def takeKey (l : Lexer) : Except Fault Lexer := do
  if !l.inFlow && !l.keyAllowed then throw .misplacedKey
  let l ← (l.openBlockHere .blockMappingStart).dropKeyStart
  return { l with keyAllowed := !l.inFlow }.take .key 1

/-- A colon. What stands before it on the line may turn out to be a key. -/
def takeValue (l : Lexer) : Except Fault Lexer :=
  match l.keyStart? with
  | some k =>
    let l := (l.insertAfter k.tokensBefore .key).openBlock k.place.column k.tokensBefore
      .blockMappingStart
    .ok ({ l with keyStart? := none, keyAllowed := false }.take .value 1)
  | none =>
    if !l.inFlow && !l.keyAllowed then .error .misplacedValue
    else
      let l := l.openBlockHere .blockMappingStart
      .ok ({ l with keyAllowed := !l.inFlow }.take .value 1)

def takeAnchor (l : Lexer) (token : String → Token) : Except Fault Lexer := do
  let l ← l.noteKeyStart
  let (name, cursor) ← anchorName (l.cursor.skip 1)
  return { l.push (token name) with cursor, keyAllowed := false }

def takeTag (l : Lexer) : Except Fault Lexer := do
  let l ← l.noteKeyStart
  let (t, cursor) ← tagToken l.inFlow l.cursor
  return { l.push t with cursor, keyAllowed := false }

def takeBlockScalar (l : Lexer) (literal : Bool) : Except Fault Lexer := do
  let l ← l.dropKeyStart
  let (text, cursor) ← blockScalar literal l.indents.head? (l.cursor.skip 1)
  let style := if literal then ScalarStyle.literal else .folded
  return { l.push (.scalar style text) with cursor, keyAllowed := true }

def takeQuotedScalar (l : Lexer) (single : Bool) : Except Fault Lexer := do
  let l ← l.noteKeyStart
  let (text, cursor) ← quotedScalar single (l.cursor.skip 1) {} []
  let style := if single then ScalarStyle.singleQuoted else .doubleQuoted
  return { l.push (.scalar style text) with cursor, keyAllowed := false }

/-- A plain scalar. If it is the last thing on its line, a key may follow it. -/
def takePlainScalar (l : Lexer) : Except Fault Lexer := do
  let l ← l.noteKeyStart
  let indent := match l.indents with
    | [] => 0
    | indent :: _ => indent + 1
  let s ← plainScalar l.inFlow indent l.cursor {} []
  return { l.push (.scalar .plain s.text) with cursor := s.next, keyAllowed := s.endsLine }

/-! ## All tokens -/

/-- Characters that never begin a plain scalar. -/
def indicators : List Char :=
  ['-', '?', ':', ',', '[', ']', '\x7b', '\x7d', '#', '&', '*', '!', '|', '>', '\'', '"', '%', '@',
   '\x60']

/-- Whether a plain scalar is next. A hyphen, a question mark or a colon may begin one if no
blank follows; the last two not between brackets. -/
def startsPlainScalar (l : Lexer) (c : Char) (next : Option Char) : Bool :=
  (!endsWord (some c) && !indicators.contains c)
    || (c == '-' && !next.any isBlank)
    || (!l.inFlow && (c == '?' || c == ':') && !endsWord next)

def takeToken (l : Lexer) (c : Char) : Except Fault Lexer :=
  let next := l.cursor.peek 1
  let atMargin := l.cursor.column == 0
  if atMargin && c == '%' then l.takeDirective
  else if atMargin && startsMarker '-' l.cursor.rest then l.takeMarker .documentStart
  else if atMargin && startsMarker '.' l.cursor.rest then l.takeMarker .documentEnd
  else if c == '[' then l.openBracket .flowSequenceStart
  else if c == '\x7b' then l.openBracket .flowMappingStart
  else if c == ']' then l.closeBracket .flowSequenceEnd
  else if c == '\x7d' then l.closeBracket .flowMappingEnd
  else if c == ',' then l.takeFlowEntry
  else if c == '-' && endsWord next then l.takeBlockEntry
  else if c == '?' && (l.inFlow || endsWord next) then l.takeKey
  else if c == ':' && (l.inFlow || endsWord next) then l.takeValue
  else if c == '*' then l.takeAnchor .alias
  else if c == '&' then l.takeAnchor .anchor
  else if c == '!' then l.takeTag
  else if c == '|' && !l.inFlow then l.takeBlockScalar true
  else if c == '>' && !l.inFlow then l.takeBlockScalar false
  else if c == '\'' then l.takeQuotedScalar true
  else if c == '"' then l.takeQuotedScalar false
  else if l.startsPlainScalar c next then l.takePlainScalar
  else .error .unexpectedCharacter

/-- Take the next token; nothing if none is left. -/
def step (l : Lexer) : Except Fault (Option Lexer) := do
  let l ← (l.skipSpace l.cursor.rest.length).checkKeyStarts
  let l := l.closeDeeperBlocks
  match l.cursor.peek 0 with
  | some c => return some (← l.takeToken c)
  | none => return none

def finish (l : Lexer) : Except Fault (List Token) := do
  let l ← l.closeAllBlocks.dropKeyStart
  return l.tokens.reverse

/-- Take all tokens. Each has a character of its own, so there are no more than characters. -/
def run : Nat → Lexer → Except Fault (List Token)
  | 0, l => l.finish
  | fuel + 1, l => do
    match ← l.step with
    | some next => run fuel next
    | none => l.finish

end Lexer

def Token.ofText (text : String) : Except Fault (List Token) :=
  if text.toList.all isAllowed then
    let cs := uniformBreaks text.toList
    Lexer.run (cs.length + 1) { cursor := { rest := cs } }
  else .error .controlCharacter

end ChangeImpact.Yaml
