import ChangeImpact.Yaml.Cursor

/-!
# Scalars

How the text of a scalar is read: plain, quoted or in a block. A line break
between two lines of a plain, quoted or folded scalar counts as a space, and
further line breaks stand for themselves.

## Main definitions

* `Gap`: blank space between two words of a scalar.
* `plainScalar`, `quotedScalar`, `blockScalar`: the three ways to read a scalar.
-/

namespace ChangeImpact.Yaml

/-! ## Gaps -/

/-- Blank space between two words of a scalar. -/
structure Gap where
  /-- Blanks before the first line break. -/
  blanks : List Char := []
  /-- The first line break; no character if it is escaped. -/
  break? : Option (List Char) := none
  /-- The other line breaks. -/
  more : List Char := []

namespace Gap

def hasBreak (g : Gap) : Bool := g.break?.isSome

def isEmpty (g : Gap) : Bool := g.blanks.isEmpty && !g.hasBreak

/-- Blanks behind a line break are indentation and count for nothing. -/
def addBlank (g : Gap) (c : Char) : Gap :=
  if g.hasBreak then g else { g with blanks := g.blanks ++ [c] }

/-- Blanks before a line break count for nothing. -/
def addBreak (g : Gap) (c : Char) : Gap :=
  if g.hasBreak then { g with more := g.more ++ [c] } else { blanks := [], break? := some [c] }

def folded (g : Gap) : List Char :=
  match g.break? with
  | none => g.blanks
  | some ['\n'] => if g.more.isEmpty then [' '] else g.more
  | some first => first ++ g.more

end Gap

/-! ## Plain scalars -/

structure PlainScalar where
  text : String
  /-- Whether a line ended behind it. -/
  endsLine : Bool
  next : Cursor

/-- Characters that end a plain scalar between brackets. -/
def flowIndicators : List Char := [',', '[', ']', '\x7b', '\x7d']

/-- Read a plain scalar, of which some text and a gap have been read. Further lines must be
indented by `indent` columns, unless the scalar stands between brackets. -/
def plainScalar (flow : Bool) (indent : Nat) (cur : Cursor) (gap : Gap) (text : List Char) :
    Except Fault PlainScalar :=
  let done : Except Fault PlainScalar := .ok ⟨String.ofList text, gap.hasBreak, cur⟩
  match _h : cur.rest with
  | [] => done
  | c :: after =>
    if isBlank c then
      if gap.hasBreak && cur.column < indent && c == '\t' then .error .tabInIndentation
      else plainScalar flow indent (cur.skip 1) (gap.addBlank c) text
    else if isBreak c then plainScalar flow indent cur.skipBreak (gap.addBreak c) text
    else if !gap.isEmpty && !flow && cur.column < indent then done
    else if !gap.isEmpty && (c == '#' || (cur.column == 0 && startsAnyMarker cur.rest)) then done
    else if flow && c == ':' && after.head?.any (fun d => d == '?' || flowIndicators.contains d)
      then .error .unexpectedCharacter
    else if c == ':' && endsWord after.head? then done
    else if flow && flowIndicators.contains c then done
    else plainScalar flow indent (cur.skip 1) {} (text ++ gap.folded ++ [c])
termination_by cur.rest.length
decreasing_by
  · exact Cursor.length_skip_lt (by decide) (by simp [_h])
  · exact Cursor.length_skipBreak_lt (by simp [_h])
  · exact Cursor.length_skip_lt (by decide) (by simp [_h])

/-! ## Quoted scalars -/

def hexValue? (c : Char) : Option Nat :=
  if '0' ≤ c && c ≤ '9' then some (c.toNat - '0'.toNat)
  else if 'a' ≤ c && c ≤ 'f' then some (c.toNat - 'a'.toNat + 10)
  else if 'A' ≤ c && c ≤ 'F' then some (c.toNat - 'A'.toNat + 10)
  else none

def hexNumber? (cs : List Char) : Option Nat :=
  cs.foldl (fun n? c => do return 16 * (← n?) + (← hexValue? c)) (some 0)

def escapedChar? : Char → Option Char
  | '0' => some (.ofNat 0)
  | 'a' => some (.ofNat 7)
  | 'b' => some (.ofNat 8)
  | 't' | '\t' => some '\t'
  | 'n' => some '\n'
  | 'v' => some (.ofNat 11)
  | 'f' => some (.ofNat 12)
  | 'r' => some '\r'
  | 'e' => some (.ofNat 27)
  | ' ' => some ' '
  | '"' => some '"'
  | '/' => some '/'
  | '\\' => some '\\'
  | 'N' => some (.ofNat 0x85)
  | '_' => some (.ofNat 0xA0)
  | 'L' => some (.ofNat 0x2028)
  | 'P' => some (.ofNat 0x2029)
  | _ => none

/-- How many digits follow a letter that introduces the number of a character. -/
def codeLength? : Char → Option Nat
  | 'x' => some 2
  | 'u' => some 4
  | 'U' => some 8
  | _ => none

/-- The character behind a backslash, and how many characters it takes to write it, the
backslash apart. -/
def escapeSequence? : List Char → Option (Char × Nat)
  | [] => none
  | c :: rest =>
    match escapedChar? c with
    | some d => some (d, 1)
    | none => do
      let count ← codeLength? c
      let digits := rest.take count
      if digits.length = count then
        let n ← hexNumber? digits
        if n.isValidChar then some (.ofNat n, count + 1) else none
      else none

/-- Read a quoted scalar behind its first quote, of which some text and a gap have been read. -/
def quotedScalar (single : Bool) (cur : Cursor) (gap : Gap) (text : List Char) :
    Except Fault (String × Cursor) :=
  match _h : cur.rest with
  | [] => .error .unclosedQuote
  | c :: after =>
    if isBlank c then quotedScalar single (cur.skip 1) (gap.addBlank c) text
    else if isBreak c then quotedScalar single cur.skipBreak (gap.addBreak c) text
    else if cur.column == 0 && startsAnyMarker cur.rest then .error .unclosedQuote
    else
      let text := text ++ gap.folded
      if single && c == '\'' then
        if after.head? == some '\'' then quotedScalar single (cur.skip 2) {} (text ++ ['\''])
        else .ok (String.ofList text, cur.skip 1)
      else if !single && c == '"' then .ok (String.ofList text, cur.skip 1)
      else if !single && c == '\\' then
        if after.head?.any isBreak then
          quotedScalar single ((cur.skip 1).skipBreak) { break? := some [] } text
        else
          match escapeSequence? after with
          | some (d, count) => quotedScalar single (cur.skip (count + 1)) {} (text ++ [d])
          | none => .error .badEscape
      else quotedScalar single (cur.skip 1) {} (text ++ [c])
termination_by cur.rest.length
decreasing_by
  all_goals first
    | exact Cursor.length_skip_lt (by omega) (by simp_all)
    | exact Cursor.length_skipBreak_lt (by simp_all)
    | (simp only [Cursor.skip, Cursor.skipBreak, _h, List.length_drop, List.length_cons]; omega)

/-! ## Block scalars -/

/-- What becomes of the line breaks at the end of a block scalar. -/
inductive Chomping where
  | strip
  | clip
  | keep
deriving DecidableEq, Inhabited

structure BlockHeader where
  chomping : Chomping := .clip
  /-- The indentation that is given, relative to the block around. -/
  indentation? : Option Nat := none

def readChomping (cur : Cursor) : Option Chomping × Cursor :=
  match cur.peek 0 with
  | some '+' => (some .keep, cur.skip 1)
  | some '-' => (some .strip, cur.skip 1)
  | _ => (none, cur)

def readIndentation (cur : Cursor) : Except Fault (Option Nat × Cursor) :=
  match cur.peek 0 with
  | some c =>
    if c == '0' then .error .badScalarHeader
    else if c.isDigit then .ok (some (c.toNat - '0'.toNat), cur.skip 1)
    else .ok (none, cur)
  | none => .ok (none, cur)

/-- Read a header up to the end of its line. Sign and digit may stand in any order. -/
def blockHeader (cur : Cursor) : Except Fault (BlockHeader × Cursor) := do
  let (sign?, cur) := readChomping cur
  let (digit?, cur) ← readIndentation cur
  let (late?, cur) := if sign?.isNone && digit?.isSome then readChomping cur else (none, cur)
  match cur.skipLineRest? with
  | some cur => return (⟨(sign?.or late?).getD .clip, digit?⟩, cur)
  | none => throw .badScalarHeader

/-- The lines between two lines with text in a block scalar. -/
structure BlankLines where
  next : Cursor
  /-- The deepest column that was reached. -/
  deepest : Nat
  breaks : List Char

/-- Read indentation and empty lines. The indentation is not known yet if `indent` is zero. -/
def blankLines (indent : Nat) (cur : Cursor) (deepest : Nat) (breaks : List Char) :
    Except Fault BlankLines :=
  let spaces := (cur.rest.takeWhile (· == ' ')).length
  let next := cur.skip (if indent = 0 then spaces else min spaces (indent - cur.column))
  let deepest := max deepest next.column
  match _h : next.rest with
  | [] => .ok ⟨next, deepest, breaks⟩
  | c :: _ =>
    if (indent == 0 || next.column < indent) && c == '\t' then .error .tabInIndentation
    else if isBreak c then blankLines indent next.skipBreak deepest (breaks ++ [c])
    else .ok ⟨next, deepest, breaks⟩
termination_by cur.rest.length
decreasing_by
  have left : next.rest ≠ [] := fun none => by simp [none] at _h
  exact Nat.lt_of_lt_of_le (Cursor.length_skipBreak_lt left) (Cursor.length_skip_le ..)

structure BlockText where
  text : List Char := []
  /-- The break behind the last line. -/
  lineBreak : List Char := []
  /-- The empty lines behind that. -/
  breaks : List Char := []
  /-- Whether the last line began with a blank. -/
  blankStart : Bool := false

/-- The text with what stands between the last line and a next one. -/
def BlockText.joined (b : BlockText) (literal blankStart : Bool) : List Char :=
  if !literal && b.lineBreak == ['\n'] && !b.blankStart && !blankStart then
    b.text ++ (if b.breaks.isEmpty then [' '] else []) ++ b.breaks
  else b.text ++ b.lineBreak ++ b.breaks

def blockLines (literal : Bool) (indent : Nat) (cur : Cursor) (b : BlockText) :
    Except Fault (BlockText × Cursor) :=
  match cur.rest with
  | [] => .ok (b, cur)
  | c :: _ =>
    if cur.column ≠ indent then .ok (b, cur)
    else
      let blankStart := isBlank c
      let (line, behind) := cur.span (!isBreak ·)
      let (lineBreak, behind) := match behind.peek 0 with
        | some d => ([d], behind.skipBreak)
        | none => ([], behind)
      match blankLines indent behind 0 [] with
      | .error fault => .error fault
      | .ok blank =>
        let b := { text := b.joined literal blankStart ++ line, lineBreak, breaks := blank.breaks,
                   blankStart }
        if _shorter : blank.next.rest.length < cur.rest.length then
          blockLines literal indent blank.next b
        else .ok (b, blank.next)
termination_by cur.rest.length

/-- Read a block scalar behind its indicator. `around` is the indentation of the block around
it, or nothing outside all blocks. -/
def blockScalar (literal : Bool) (around : Option Nat) (cur : Cursor) :
    Except Fault (String × Cursor) := do
  let (header, cur) ← blockHeader cur
  let given := match header.indentation? with
    | some n => around.getD 0 + n
    | none => 0
  let blank ← blankLines given cur 0 []
  let least := match around with
    | some n => n + 1
    | none => 1
  let indent := if given = 0 then max blank.deepest least else given
  let (b, cur) ← blockLines literal indent blank.next { breaks := blank.breaks }
  let ending := match header.chomping with
    | .strip => []
    | .clip => b.lineBreak
    | .keep => b.lineBreak ++ b.breaks
  return (String.ofList (b.text ++ ending), cur)

end ChangeImpact.Yaml
