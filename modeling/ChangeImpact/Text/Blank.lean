/-!
# Blank characters and pieces of a text

Blank are the characters with the Unicode property `White_Space`.
-/

namespace ChangeImpact.Text

def isBlank (c : Char) : Bool :=
  (9 ≤ c.toNat && c.toNat ≤ 13) || c.toNat == 0x20 || c.toNat == 0x85 || c.toNat == 0xA0
    || c.toNat == 0x1680 || (0x2000 ≤ c.toNat && c.toNat ≤ 0x200A) || c.toNat == 0x2028
    || c.toNat == 0x2029 || c.toNat == 0x202F || c.toNat == 0x205F || c.toNat == 0x3000

def trimChars (cs : List Char) : List Char :=
  ((cs.dropWhile isBlank).reverse.dropWhile isBlank).reverse

def trim (s : String) : String := String.ofList (trimChars s.toList)

/-- The pieces of a list between the occurrences of `c`, also the empty ones. -/
def listPieces {α : Type} [DecidableEq α] (c : α) : List α → List (List α)
  | [] => [[]]
  | x :: xs =>
    if x = c then [] :: listPieces c xs
    else
      match listPieces c xs with
      | [] => [[x]]
      | piece :: more => (x :: piece) :: more

def pieces (c : Char) (s : String) : List String := (listPieces c s.toList).map String.ofList

end ChangeImpact.Text
