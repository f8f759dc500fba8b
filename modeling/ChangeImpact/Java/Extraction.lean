import ChangeImpact.FileTree.Basic
import ChangeImpact.Java.Source
import ChangeImpact.Java.SourceUnit

/-!
# Extraction

How a Java source becomes a source unit. A source that is not well formed has no
unit, and neither has one that declares no class, interface, enum or record.
-/

namespace ChangeImpact.Java

/-! ## Units of well-formed sources -/

namespace Source

variable (s : Source)

/-- The type that a unit is about: the first that is no annotation type. -/
def firstType? : Option TypeDeclaration :=
  s.items.findSome? fun
    | .type d => if d.kind = .annotationType then none else some d
    | _ => none

/-- The first package that is named. -/
def package? : Option String :=
  s.items.findSome? fun
    | .package name => some name
    | _ => none

/-- The names of the classes that are imported one by one. -/
def imports : List String :=
  s.items.filterMap fun
    | .imported false false name => some name
    | _ => none

end Source

def Member.fields (ms : List Member) : List Field :=
  ms.filterMap fun
    | .field m type =>
      some { annotations := m.simpleAnnotations, isFinal := m.isFinal, typeNames := type.names }
    | _ => none

/-- The class names in the parameters of the constructors among some members. -/
def Member.parameterTypes (ms : List Member) : List String :=
  ms.flatMap fun
    | .constructor parameters => parameters.flatMap TypeRef.names
    | _ => []

/-- The unit of a source, if it declares a type. -/
def SourceUnit.ofSource (path : String) (s : Source) : Option SourceUnit :=
  s.firstType?.map fun d =>
    { path
      packageName? := s.package?
      typeName := d.name
      annotations := d.modifiers.simpleAnnotations
      imports := s.imports
      fields := Member.fields d.members
      parameterTypes := d.components.flatMap TypeRef.names ++ Member.parameterTypes d.members
      declaresTest := s.declaresTest }

/-! ## Units of files -/

inductive ExtractionFault where
  /-- The source is not well formed at some place. -/
  | malformed (place : Position)
  /-- The file holds no text. -/
  | notText
  /-- The file cannot be read. -/
  | unreadable (fault : PathFault)
deriving Inhabited

structure ExtractionError where
  path : String
  fault : ExtractionFault
deriving Inhabited

namespace ExtractionFault

def message : ExtractionFault → String
  | .malformed place => "syntax error at " ++ place.text
  | .notText => "file is not valid UTF-8"
  | .unreadable fault => fault.message

def kind : ExtractionFault → String
  | .malformed _ => "parse failed"
  | .notText => "encoding error"
  | .unreadable _ => "I/O error"

end ExtractionFault

def ExtractionError.text (e : ExtractionError) : String :=
  e.path ++ ": " ++ e.fault.message ++ " (" ++ e.fault.kind ++ ")"

namespace SourceUnit

def ofText (path text : String) : Except ExtractionError (Option SourceUnit) :=
  match Source.parse text with
  | .ok s => .ok (ofSource path s)
  | .error place => .error ⟨path, .malformed place⟩

def ofBytes (path : String) (content : ByteArray) : Except ExtractionError (Option SourceUnit) :=
  match String.fromUTF8? content with
  | some text => ofText path text
  | none => .error ⟨path, .notText⟩

/-- The unit of a file in a file system. It knows the file by the path that is shown. -/
def ofFile (fs : FileSystem) (path : RawText) : Except ExtractionError (Option SourceUnit) :=
  match fs.read path with
  | .ok content => ofBytes path.shown content
  | .error fault => .error ⟨path.shown, .unreadable fault⟩

end SourceUnit

end ChangeImpact.Java
