import ChangeImpact.Yaml.Scalar

/-!
# Anchors, tags and directives
-/

namespace ChangeImpact.Yaml

/-! ## Anchors -/

/-- Characters that may follow the name of an anchor, besides the end of a word. -/
def anchorStops : List Char := ['?', ':', ',', ']', '\x7d', '%', '@', '\x60']

def anchorName (cur : Cursor) : Except Fault (String × Cursor) :=
  let (name, cur) := cur.span isNameChar
  let ended := endsWord (cur.peek 0) || (cur.peek 0).any anchorStops.contains
  if name.isEmpty || !ended then .error .badAnchor else .ok (String.ofList name, cur)

/-! ## Tags -/

/-- Whether a character may stand in a tag. Commas and square brackets may only if the tag is
written out between angle brackets or in a directive. -/
def isTagChar (full : Bool) (c : Char) : Bool :=
  isNameChar c || [';', '/', '?', ':', '@', '&', '=', '+', '$', '.', '%', '!', '~', '*', '\'', '(',
    ')'].contains c || (full && [',', '[', ']'].contains c)

/-- How many bytes a character takes whose first byte is given. -/
def byteCount? (first : Nat) : Option Nat :=
  if first < 0x80 then some 1
  else if 0xC0 ≤ first && first < 0xE0 then some 2
  else if 0xE0 ≤ first && first < 0xF0 then some 3
  else if 0xF0 ≤ first && first < 0xF8 then some 4
  else none

/-- The bytes behind the first one of a character: each a percent sign and two digits. -/
def furtherBytes? : Nat → List Char → Option (List Char × List Char)
  | 0, cs => some ([], cs)
  | count + 1, '%' :: a :: b :: rest => do
    let byte ← hexNumber? [a, b]
    if 0x80 ≤ byte && byte < 0xC0 then
      let (bytes, rest) ← furtherBytes? count rest
      return (.ofNat byte :: bytes, rest)
    else none
  | _, _ => none

/-- The text of a tag with its escaped bytes replaced; none if they are not well formed. Only
tags of plain letters are ever compared, so a byte stands for itself. -/
def unescapeTag? : List Char → Option (List Char)
  | [] => some []
  | '%' :: a :: b :: rest => do
    let first ← hexNumber? [a, b]
    let (bytes, left) ← furtherBytes? ((← byteCount? first) - 1) rest
    if _h : left.length ≤ rest.length then
      return .ofNat first :: bytes ++ (← unescapeTag? left)
    else none
  | c :: rest => if c == '%' then none else do return c :: (← unescapeTag? rest)
termination_by cs => cs.length

def tagText (full : Bool) (cur : Cursor) : Except Fault (List Char × Cursor) :=
  let (cs, cur) := cur.span (isTagChar full)
  match unescapeTag? cs with
  | some text => .ok (text, cur)
  | none => .error .badTag

/-- Read a tag handle: an exclamation mark, perhaps a name, and perhaps another mark. -/
def tagHandle (cur : Cursor) : Except Fault (List Char × Cursor) :=
  if cur.peek 0 = some '!' then
    let (name, cur) := (cur.skip 1).span isNameChar
    if cur.peek 0 = some '!' then .ok ('!' :: name ++ ['!'], cur.skip 1)
    else .ok ('!' :: name, cur)
  else .error .badTag

def isFullHandle (handle : List Char) : Bool := 1 < handle.length && handle.getLast? == some '!'

def tagToken (flow : Bool) (cur : Cursor) : Except Fault (Token × Cursor) := do
  let (handle, suffix, cur) ←
    if cur.peek 1 = some '<' then do
      let (suffix, cur) ← tagText true (cur.skip 2)
      if suffix.isEmpty || cur.peek 0 ≠ some '>' then throw .badTag
      pure ([], suffix, cur.skip 1)
    else do
      let (handle, cur) ← tagHandle cur
      let (text, cur) ← tagText false cur
      if isFullHandle handle then
        if text.isEmpty then throw .badTag
        pure (handle, text, cur)
      else
        let suffix := handle.drop 1 ++ text
        pure (if suffix.isEmpty then ([], ['!'], cur) else (['!'], suffix, cur))
  if endsWord (cur.peek 0) || (flow && cur.peek 0 = some ',') then
    return (.tag (String.ofList handle) (String.ofList suffix), cur)
  else throw .badTag

/-! ## Directives -/

/-- Read a number of a version, of nine digits at most. -/
def versionNumber (cur : Cursor) : Except Fault (Nat × Cursor) :=
  let (digits, cur) := cur.span Char.isDigit
  if digits.isEmpty || 9 < digits.length then .error .badDirective
  else .ok (digits.foldl (fun n d => 10 * n + (d.toNat - '0'.toNat)) 0, cur)

def versionDirective (cur : Cursor) : Except Fault (Token × Cursor) := do
  let (major, cur) ← versionNumber (cur.skipWhile isBlank)
  if cur.peek 0 ≠ some '.' then throw .badDirective
  let (minor, cur) ← versionNumber (cur.skip 1)
  return (.version major minor, cur)

def tagDirective (cur : Cursor) : Except Fault (Token × Cursor) := do
  let (handle, cur) ← tagHandle (cur.skipWhile isBlank)
  if !(isFullHandle handle || handle == ['!']) || !(cur.peek 0).any isBlank then
    throw .badDirective
  let (expansion, cur) ← tagText true (cur.skipWhile isBlank)
  if expansion.isEmpty || !endsWord (cur.peek 0) then throw .badDirective
  return (.tagShorthand (String.ofList handle) (String.ofList expansion), cur)

def directive (cur : Cursor) : Except Fault (Token × Cursor) := do
  let (name, cur) := (cur.skip 1).span isNameChar
  if name.isEmpty || !endsWord (cur.peek 0) then throw .badDirective
  let (token, cur) ←
    match String.ofList name with
    | "YAML" => versionDirective cur
    | "TAG" => tagDirective cur
    | _ => throw .badDirective
  match cur.skipLineRest? with
  | some cur => return (token, cur)
  | none => throw .badDirective

end ChangeImpact.Yaml
