import ChangeImpact.Java.Declaration
import ChangeImpact.NameSet

/-!
# Source units

What is known of the first type that a Java source declares, and what follows from
it: which classes it refers to, and which class it tests.

## Main definitions

* `SourceUnit`: the facts.
* `SourceUnit.references`: the simple names of the classes a unit depends on.
* `SourceUnit.testTarget?`: the class a unit tests, with the name of the test.
-/

namespace ChangeImpact.Java

structure Field where
  /-- The simple names of its annotations. -/
  annotations : List String := []
  isFinal : Bool := false
  /-- The class names in its type. -/
  typeNames : List String := []
deriving DecidableEq, Inhabited

/-- Annotations of fields that a container fills. -/
def injectionAnnotations : List String := ["Autowired", "Inject"]

def Field.isInjected (f : Field) : Bool := f.annotations.any injectionAnnotations.contains

/-- What is known of the first type in a source. -/
structure SourceUnit where
  path : String
  packageName? : Option String := none
  typeName : String
  /-- The simple names of the type's annotations. -/
  annotations : List String := []
  /-- The names of the imported classes. -/
  imports : List String := []
  fields : List Field := []
  /-- The class names in the types of constructor parameters and record components. -/
  parameterTypes : List String := []
  /-- Whether some method in the source is a test. -/
  declaresTest : Bool := false
deriving DecidableEq, Inhabited

namespace SourceUnit

variable (u : SourceUnit)

def hasAnnotation (name : String) : Bool := u.annotations.contains name

def qualifiedName : String :=
  match u.packageName? with
  | some package => package ++ "." ++ u.typeName
  | none => u.typeName

def isEntity : Bool := u.hasAnnotation "Entity"

def isConfiguration : Bool := u.hasAnnotation "Configuration"

/-! ## References -/

/-- The simple names of imports whose text begins as the base package does. -/
def importReferences (basePackage : String) : List String :=
  (u.imports.filter (Text.startsWith · basePackage)).map simpleName

/-- The fields that a generated constructor takes as parameters. -/
def generatedParameters : List Field :=
  if u.hasAnnotation "AllArgsConstructor" then u.fields
  else if u.hasAnnotation "RequiredArgsConstructor" then u.fields.filter Field.isFinal
  else []

/-- The simple names of the classes the type depends on. -/
def references (basePackage : String) : NameSet :=
  .ofList (u.importReferences basePackage
    ++ (u.fields.filter Field.isInjected).flatMap Field.typeNames
    ++ u.parameterTypes
    ++ u.generatedParameters.flatMap Field.typeNames)

/-! ## Tests -/

def isTest : Bool := u.hasAnnotation "SpringBootTest" || u.declaresTest

/-- The class that the unit tests and the name of the test: `FooTest` tests `Foo`. -/
def testTarget? : Option (String × String) :=
  match Text.dropEnd? u.typeName "Test" with
  | some tested => if tested ≠ "" && u.isTest then some (tested, u.qualifiedName) else none
  | none => none

end SourceUnit

end ChangeImpact.Java
