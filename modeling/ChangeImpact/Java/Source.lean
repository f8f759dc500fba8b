import ChangeImpact.Java.Grammar.Statement
import ChangeImpact.Java.Lexer

/-!
# Parsing a whole source

## Main definitions

* `Grammar.ofDepth`: the grammar for texts in which it refers to itself a limited
  number of times. Every reference comes behind a token, so the number of tokens
  is limit enough.
* `Source.parse`: the items of a source, or where it ceases to be well formed.
-/

namespace ChangeImpact.Java

namespace Grammar

/-- One more reference of the grammar to itself. -/
def next (g : Grammar) : Grammar where
  typeArgument := typeArgumentRule g
  elementValue := elementValueRule g
  expression := expressionRule g
  initializer := initializerRule g
  recordPattern := recordPatternRule g
  statement := statementRule g
  member := memberRule g

/-- The grammar with a limited number of references to itself inside one another. -/
def ofDepth : Nat → Grammar
  | 0 => .nothing
  | depth + 1 => (ofDepth depth).next

end Grammar

structure Source where
  /-- What stands at its top, in order. -/
  items : List Item
  /-- Whether a test method is declared anywhere in it. -/
  declaresTest : Bool
deriving Inhabited

namespace Source

/-- The items of a list of tokens, all of which are used. -/
def parseTokens (ts : List Token) : Except Position Source :=
  let reply := Parser.toEnd ((Grammar.ofDepth (ts.length + 1)).item true) ts
  match reply.success? with
  | some s => .ok ⟨s.value, s.tests⟩
  | none => .error (Position.after (ts.take reply.reach))

/-- The items of a source, or the place where it ceases to be well formed: behind the last
token that some way of reading could use. -/
def parse (text : String) : Except Position Source := parseTokens (Lexer.tokens text.toList)

end Source

end ChangeImpact.Java
