import ChangeImpact.Json.Basic

/-!
# Reading JSON

A text is read in two steps. The first finds the values in it, but leaves strings as
they are written. The second gives strings their meaning; it fails where a string
names half of a character that takes two numbers to write. So a reader that needs
only a part of a text does not have to look into the strings of the rest.

## Main definitions

* `Json.Written`: a value whose strings are still as they are written.
* `Json.Written.parse?`: the first step.
* `Json.Written.decode?`: the second step.
* `Json.parse?`: both.
-/

namespace ChangeImpact

namespace Json

/-- A value with its strings as they are written between the quotes. -/
inductive Written where
  | null
  | bool (value : Bool)
  | number (literal : String)
  | string (body : List Char)
  | array (items : List Written)
  | object (fields : List (List Char × Written))
deriving Inhabited

/-! ## Strings -/

def hexValue? (c : Char) : Option Nat :=
  if '0' ≤ c && c ≤ '9' then some (c.toNat - '0'.toNat)
  else if 'a' ≤ c && c ≤ 'f' then some (c.toNat - 'a'.toNat + 10)
  else if 'A' ≤ c && c ≤ 'F' then some (c.toNat - 'A'.toNat + 10)
  else none

/-- The number that four hexadecimal digits stand for. -/
def unit? (a b c d : Char) : Option Nat := do
  return ((((← hexValue? a) * 16 + (← hexValue? b)) * 16 + (← hexValue? c)) * 16 + (← hexValue? d))

def unescapeLetter? (c : Char) : Option Char :=
  if c = '"' then some '"'
  else if c = '\\' then some '\\'
  else if c = '/' then some '/'
  else if c = 'b' then some (.ofNat 8)
  else if c = 'f' then some (.ofNat 12)
  else if c = 'n' then some '\n'
  else if c = 'r' then some '\r'
  else if c = 't' then some '\t'
  else none

/-- A string up to its closing quote as it is written, and what follows. -/
def stringBody? : List Char → Option (List Char × List Char)
  | [] => none
  | '\\' :: 'u' :: a :: b :: c :: d :: rest => do
    let _ ← unit? a b c d
    let (body, left) ← stringBody? rest
    return ('\\' :: 'u' :: a :: b :: c :: d :: body, left)
  | '\\' :: c :: rest => do
    let _ ← unescapeLetter? c
    let (body, left) ← stringBody? rest
    return ('\\' :: c :: body, left)
  | c :: rest =>
    if c = '"' then some ([], rest)
    else if c = '\\' || c.toNat < 32 then none
    else do
      let (body, left) ← stringBody? rest
      return (c :: body, left)

/-- Whether a number is the first half of a character. -/
def isHigh (n : Nat) : Bool := 0xD800 ≤ n && n < 0xDC00

/-- Whether a number is the second half of a character. -/
def isLow (n : Nat) : Bool := 0xDC00 ≤ n && n < 0xE000

def unescape? : List Char → Option (List Char)
  | [] => some []
  | '\\' :: 'u' :: a :: b :: c :: d :: rest => do
    let n ← unit? a b c d
    if isHigh n then
      match rest with
      | '\\' :: 'u' :: e :: f :: g :: h :: rest =>
        let m ← unit? e f g h
        if isLow m then
          return .ofNat (0x10000 + (n - 0xD800) * 0x400 + (m - 0xDC00)) :: (← unescape? rest)
        else none
      | _ => none
    else if isLow n then none
    else return .ofNat n :: (← unescape? rest)
  | '\\' :: c :: rest => do return (← unescapeLetter? c) :: (← unescape? rest)
  | c :: rest => if c = '\\' then none else do return c :: (← unescape? rest)

/-! ## Values -/

def isBlank (c : Char) : Bool := c == ' ' || c == '\t' || c == '\n' || c == '\r'

def skipBlanks (cs : List Char) : List Char := cs.dropWhile isBlank

def afterWord? (word : String) (cs : List Char) : Option (List Char) :=
  if word.toList.isPrefixOf cs then some (cs.drop word.length) else none

def digits? (cs : List Char) : Option (List Char × List Char) :=
  match cs.takeWhile Char.isDigit with
  | [] => none
  | ds => some (ds, cs.dropWhile Char.isDigit)

/-- The digits before the point: a zero alone, or digits that do not begin with one. -/
def wholePart? : List Char → Option (List Char × List Char)
  | '0' :: rest => if rest.head?.any Char.isDigit then none else some (['0'], rest)
  | cs => digits? cs

def fraction? : List Char → Option (List Char × List Char)
  | '.' :: rest => do
    let (ds, left) ← digits? rest
    return ('.' :: ds, left)
  | cs => some ([], cs)

def exponent? : List Char → Option (List Char × List Char)
  | e :: rest =>
    if e = 'e' || e = 'E' then
      let (sign, rest) := match rest with
        | '+' :: more => (['+'], more)
        | '-' :: more => (['-'], more)
        | _ => ([], rest)
      do
        let (ds, left) ← digits? rest
        return (e :: sign ++ ds, left)
    else some ([], e :: rest)
  | [] => some ([], [])

/-- A number as it is written, and what follows. -/
def number? (cs : List Char) : Option (String × List Char) := do
  let (sign, cs) := match cs with
    | '-' :: rest => (['-'], rest)
    | _ => ([], cs)
  let (whole, cs) ← wholePart? cs
  let (fraction, cs) ← fraction? cs
  let (exponent, cs) ← exponent? cs
  return (String.ofList (sign ++ whole ++ fraction ++ exponent), cs)

namespace Written

mutual

/-- A value at the front of a text, and what follows. -/
def value? (fuel : Nat) (cs : List Char) : Option (Written × List Char) :=
  match fuel with
  | 0 => none
  | fuel + 1 =>
    match skipBlanks cs with
    | '"' :: rest => (stringBody? rest).map fun (body, left) => (.string body, left)
    | '[' :: rest =>
      match skipBlanks rest with
      | ']' :: left => some (.array [], left)
      | _ => (items? fuel rest).map fun (items, left) => (.array items, left)
    | '\x7b' :: rest =>
      match skipBlanks rest with
      | '\x7d' :: left => some (.object [], left)
      | _ => (fields? fuel rest).map fun (fields, left) => (.object fields, left)
    | 'n' :: rest => (afterWord? "ull" rest).map fun left => (.null, left)
    | 't' :: rest => (afterWord? "rue" rest).map fun left => (.bool true, left)
    | 'f' :: rest => (afterWord? "alse" rest).map fun left => (.bool false, left)
    | other => (number? other).map fun (literal, left) => (.number literal, left)

def items? (fuel : Nat) (cs : List Char) : Option (List Written × List Char) :=
  match fuel with
  | 0 => none
  | fuel + 1 => do
    let (item, left) ← value? fuel cs
    match skipBlanks left with
    | ',' :: rest =>
      let (items, left) ← items? fuel rest
      return (item :: items, left)
    | ']' :: rest => return ([item], rest)
    | _ => none

def fields? (fuel : Nat) (cs : List Char) : Option (List (List Char × Written) × List Char) :=
  match fuel with
  | 0 => none
  | fuel + 1 =>
    match skipBlanks cs with
    | '"' :: rest => do
      let (key, left) ← stringBody? rest
      match skipBlanks left with
      | ':' :: rest =>
        let (value, left) ← value? fuel rest
        match skipBlanks left with
        | ',' :: rest =>
          let (fields, left) ← fields? fuel rest
          return ((key, value) :: fields, left)
        | '\x7d' :: rest => return ([(key, value)], rest)
        | _ => none
      | _ => none
    | _ => none

end

/-- The value in a text. Every value has a character of its own, and an item or a field adds a
step, so twice as many steps as characters are enough. -/
def parse? (text : String) : Option Written := do
  let (value, left) ← value? (2 * text.length + 2) text.toList
  if (skipBlanks left).isEmpty then some value else none

mutual

def decode? : Written → Option Json
  | .null => some .null
  | .bool b => some (.bool b)
  | .number literal => some (.number literal)
  | .string body => (unescape? body).map fun cs => .string (String.ofList cs)
  | .array items => (decodeItems? items).map .array
  | .object fields => (decodeFields? fields).map .object

def decodeItems? : List Written → Option (List Json)
  | [] => some []
  | item :: rest => do return (← decode? item) :: (← decodeItems? rest)

def decodeFields? : List (List Char × Written) → Option (List (String × Json))
  | [] => some []
  | (key, value) :: rest => do
    return (String.ofList (← unescape? key), ← decode? value) :: (← decodeFields? rest)

end

end Written

def parse? (text : String) : Option Json := (Written.parse? text).bind Written.decode?

end Json

end ChangeImpact
