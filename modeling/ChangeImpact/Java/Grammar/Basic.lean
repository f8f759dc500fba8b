import ChangeImpact.Java.Declaration
import ChangeImpact.Java.Parser

/-!
# The grammar's recursive parts

The grammar of Java refers to itself in a few places: an expression may hold a
class body, a statement another statement, a type argument another type. A
`Grammar` is a parser for each of these places. The rules in this folder take a
grammar and use it only behind a token of their own, so a grammar that is good
for texts of some length makes the rules good for longer ones.

The rules are lenient where nothing hangs on it. Keywords are words like all
others, and a keyword is read as an identifier wherever an identifier may stand
and the keyword may not.
-/

namespace ChangeImpact.Java

/-- What an arrow behind an expression means. -/
inductive ArrowUse where
  /-- The arrow of a lambda expression. -/
  | lambda
  /-- The end of a label in a `switch`. -/
  | label
deriving DecidableEq, Inhabited

inductive BodyKind where
  | classBody
  | interfaceBody
  | annotationBody
deriving DecidableEq, Inhabited

/-- Parsers for the places where the grammar refers to itself. -/
structure Grammar where
  typeArgument : Parser TypeRef
  elementValue : Parser Unit
  expression : ArrowUse → Parser Unit
  initializer : Parser Unit
  recordPattern : Parser Unit
  statement : Parser Unit
  member : BodyKind → Parser (List Member)

def Grammar.nothing : Grammar where
  typeArgument := .fail
  elementValue := .fail
  expression := fun _ => .fail
  initializer := .fail
  recordPattern := .fail
  statement := .fail
  member := fun _ => .fail

/-! ## Words with a meaning of their own -/

/-- Primitive types and `void`. -/
def primitiveWords : List String :=
  ["void", "byte", "short", "int", "long", "char", "float", "double", "boolean"]

/-- Words that are keywords in some places and names in all others, but never types where an
expression may stand. -/
def reservedWords : List String := ["open", "module", "record", "with", "sealed", "yield"]

/-- Words that begin an expression and are no names there. -/
def expressionWords : List String :=
  ["true", "false", "null", "this", "super", "new", "switch"] ++ primitiveWords

def modifierWords : List String :=
  ["public", "protected", "private", "abstract", "static", "final", "strictfp", "default",
   "synchronized", "native", "transient", "volatile", "sealed"]

/-- The modifiers that are never names where a modifier may stand. -/
def modifierOnlyWords : List String := modifierWords.filter fun w => !reservedWords.contains w

end ChangeImpact.Java
