/-!
# Styled text for terminals
-/

namespace ChangeImpact.Text

inductive Style where
  | bold
  | dimmed
  | red
  | green
  | yellow
  | cyan
deriving DecidableEq, Inhabited

def Style.start : Style → List Char
  | .bold => "\x1b[1m".toList
  | .dimmed => "\x1b[2m".toList
  | .red => "\x1b[31m".toList
  | .green => "\x1b[32m".toList
  | .yellow => "\x1b[33m".toList
  | .cyan => "\x1b[36m".toList

/-- Begin a style again wherever the text itself ends all styles. -/
def restartStyle (start : List Char) : List Char → List Char
  | '\x1b' :: '[' :: '0' :: 'm' :: rest => "\x1b[0m".toList ++ start ++ restartStyle start rest
  | c :: rest => c :: restartStyle start rest
  | [] => []

/-- A text in a style, or as it is if no styles are wanted. -/
def styled (wanted : Bool) (style : Style) (s : String) : String :=
  if wanted then
    String.ofList (style.start ++ restartStyle style.start s.toList ++ "\x1b[0m".toList)
  else s

end ChangeImpact.Text
