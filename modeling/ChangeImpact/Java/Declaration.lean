import ChangeImpact.Text.Affix

/-!
# Declarations of a Java source

What is kept of a source: its package and imports, and of its types what decides
which classes they depend on. Names are held as they are written, dots, layout
and all; their last segment is taken where a simple name is asked for.

## Main definitions

* `TypeRef`, `TypeRef.names`: a type as written, and the class names in it.
* `Modifiers`, `Member`, `TypeDeclaration`, `Item`: declarations.
-/

namespace ChangeImpact.Java

/-- What follows the last dot of a name. -/
def simpleName (name : String) : String := Text.afterLast '.' name

/-! ## Types -/

inductive TypeRef where
  /-- A primitive type or `void`. -/
  | primitive (name : String)
  /-- A class, by its simple or dotted name. -/
  | named (name : String)
  /-- A class with arguments. -/
  | generic (name : String) (arguments : List TypeRef)
  | array (element : TypeRef)
  /-- The argument `?`. -/
  | wildcard
  /-- An argument `? extends` or `? super` some type. -/
  | bounded (bound : TypeRef)
deriving Inhabited

namespace TypeRef

mutual

/-- The simple names of the classes in a type, from left to right. -/
def names : TypeRef → List String
  | .primitive _ => []
  | .named name => [simpleName name]
  | .generic name arguments => simpleName name :: namesOfAll arguments
  | .array element => names element
  | .wildcard => []
  | .bounded bound => names bound

def namesOfAll : List TypeRef → List String
  | [] => []
  | t :: ts => names t ++ namesOfAll ts

end

def arrays (element : TypeRef) : Nat → TypeRef
  | 0 => element
  | n + 1 => .array (arrays element n)

end TypeRef

/-! ## Declarations -/

structure Modifiers where
  /-- The annotations' names as written, in order. -/
  annotations : List String := []
  /-- The keywords in order. -/
  keywords : List String := []
deriving DecidableEq, Inhabited

namespace Modifiers

def simpleAnnotations (m : Modifiers) : List String := m.annotations.map simpleName

def isFinal (m : Modifiers) : Bool := m.keywords.contains "final"

def isEmpty (m : Modifiers) : Bool := m.annotations.isEmpty && m.keywords.isEmpty

def marksTest (m : Modifiers) : Bool := m.simpleAnnotations.contains "Test"

end Modifiers

/-- A member of a type, as far as it matters for dependencies. -/
inductive Member where
  | field (modifiers : Modifiers) (type : TypeRef)
  | constructor (parameters : List TypeRef)
  | other
deriving Inhabited

inductive TypeKind where
  | classType
  | interfaceType
  | enumType
  | recordType
  | annotationType
deriving DecidableEq, Inhabited

structure TypeDeclaration where
  kind : TypeKind
  name : String
  modifiers : Modifiers := {}
  /-- The types of a record's components. -/
  components : List TypeRef := []
  members : List Member := []
deriving Inhabited

inductive Item where
  | package (name : String)
  | imported (isStatic onDemand : Bool) (name : String)
  | type (declaration : TypeDeclaration)
  | other
deriving Inhabited

end ChangeImpact.Java
