/-!
# JSON values and their written forms

A value is written in two forms: `Json.compact` puts it on one line without any
blank, `Json.pretty` puts every element on a line of its own, two blanks deeper
than what holds it. Both write object fields in the order in which they are held
and escape in strings only what JSON demands: the quote, the backslash and the
characters below the space.

## Main definitions

* `Json`: a value; numbers are held as they are written.
* `Json.escape`: the text of a string between its quotes.
* `Json.compact`, `Json.pretty`: the two written forms.
-/

namespace ChangeImpact

inductive Json where
  | null
  | bool (value : Bool)
  /-- A number, as it is written. -/
  | number (literal : String)
  | string (value : String)
  | array (items : List Json)
  /-- An object: its fields in order. -/
  | object (fields : List (String × Json))
deriving Inhabited

namespace Json

def nat (n : Nat) : Json := .number (toString n)

def strings (items : List String) : Json := .array (items.map .string)

/-! ## Strings -/

def hexDigit (n : Nat) : Char :=
  if n < 10 then Char.ofNat ('0'.toNat + n) else Char.ofNat ('a'.toNat + (n - 10))

def escapeChar (c : Char) : List Char :=
  if c = '"' then ['\\', '"']
  else if c = '\\' then ['\\', '\\']
  else if c.toNat = 8 then ['\\', 'b']
  else if c.toNat = 9 then ['\\', 't']
  else if c.toNat = 10 then ['\\', 'n']
  else if c.toNat = 12 then ['\\', 'f']
  else if c.toNat = 13 then ['\\', 'r']
  else if c.toNat < 32 then ['\\', 'u', '0', '0', hexDigit (c.toNat / 16), hexDigit (c.toNat % 16)]
  else [c]

def escape (cs : List Char) : List Char := cs.flatMap escapeChar

def quote (s : String) : List Char := '"' :: escape s.toList ++ ['"']

/-! ## One line -/

mutual

def compactChars : Json → List Char
  | .null => "null".toList
  | .bool true => "true".toList
  | .bool false => "false".toList
  | .number n => n.toList
  | .string s => quote s
  | .array [] => ['[', ']']
  | .array (x :: xs) => '[' :: compactChars x ++ compactItems xs ++ [']']
  | .object [] => ['\x7b', '\x7d']
  | .object ((k, v) :: fields) =>
    '\x7b' :: quote k ++ [':'] ++ compactChars v ++ compactFields fields ++ ['\x7d']

def compactItems : List Json → List Char
  | [] => []
  | x :: xs => ',' :: compactChars x ++ compactItems xs

def compactFields : List (String × Json) → List Char
  | [] => []
  | (k, v) :: fields => ',' :: quote k ++ [':'] ++ compactChars v ++ compactFields fields

end

/-- The form on one line. -/
def compact (j : Json) : String := String.ofList j.compactChars

/-! ## One element a line -/

def newline (depth : Nat) : List Char := '\n' :: List.replicate (2 * depth) ' '

mutual

/-- The characters of the form with one element a line, inside `depth` containers. -/
def prettyChars (depth : Nat) : Json → List Char
  | .null => "null".toList
  | .bool true => "true".toList
  | .bool false => "false".toList
  | .number n => n.toList
  | .string s => quote s
  | .array [] => ['[', ']']
  | .array (x :: xs) =>
    '[' :: newline (depth + 1) ++ prettyChars (depth + 1) x ++ prettyItems (depth + 1) xs
      ++ newline depth ++ [']']
  | .object [] => ['\x7b', '\x7d']
  | .object ((k, v) :: fields) =>
    '\x7b' :: newline (depth + 1) ++ quote k ++ [':', ' '] ++ prettyChars (depth + 1) v
      ++ prettyFields (depth + 1) fields ++ newline depth ++ ['\x7d']

def prettyItems (depth : Nat) : List Json → List Char
  | [] => []
  | x :: xs => ',' :: newline depth ++ prettyChars depth x ++ prettyItems depth xs

def prettyFields (depth : Nat) : List (String × Json) → List Char
  | [] => []
  | (k, v) :: fields =>
    ',' :: newline depth ++ quote k ++ [':', ' '] ++ prettyChars depth v
      ++ prettyFields depth fields

end

/-- The form with one element a line. -/
def pretty (j : Json) : String := String.ofList (j.prettyChars 0)

end Json

end ChangeImpact
