import ChangeImpact.Text.Affix
import ChangeImpact.Text.Blank
import ChangeImpact.Text.Raw

/-!
# Paths

The parts of a path are separated by slashes. Empty parts and the part `.` add nothing to
it; the part `..` leads back. A path that was written down is a text, and one that a file
system gives is raw; both are joined and cut in the same way.

## Main definitions

* `Path.joinLists`, `Path.cutList`: paths and names as lists of characters or of bytes.
* `Path.join`, `Path.parts`, `Path.stem?`, `Path.isJavaFile`: paths that are texts.
* `RawText.join`, `RawText.pieces`, `RawText.isJavaName`: paths and names that are raw.
-/

namespace ChangeImpact

namespace Path

/-! ## Paths as lists -/

section

variable {α : Type} [DecidableEq α]

/-- A path taken from a directory: the path itself if it begins with a slash, else the two
joined by one slash. -/
def joinLists (slash : α) (directory path : List α) : List α :=
  if path.head? = some slash then path
  else if directory = [] ∨ directory.getLast? = some slash then directory ++ path
  else directory ++ slash :: path

/-- A file name cut at its last dot: what stands before and after it. A name without a dot
and a name whose only dot comes first are not cut. -/
def cutList (dot : α) (name : List α) : List α × Option (List α) :=
  let after := Text.listAfterLast dot name
  let before := name.take (name.length - after.length - 1)
  if before.isEmpty then (name, none) else (before, some after)

end

/-! ## Paths that are texts -/

def join (directory path : String) : String :=
  String.ofList (joinLists '/' directory.toList path.toList)

/-- The parts of a path that lead somewhere. -/
def parts (path : String) : List String :=
  (Text.pieces '/' path).filter fun part => part != "" && part != "."

/-- The last part of a path, unless it leads back. -/
def fileName? (path : String) : Option String :=
  (parts path).getLast?.filter (· != "..")

def cutName (name : String) : String × Option String :=
  (cutList '.' name.toList).map String.ofList (Option.map String.ofList)

def stem? (path : String) : Option String := (fileName? path).map fun name => (cutName name).1

def extension? (path : String) : Option String :=
  (fileName? path).bind fun name => (cutName name).2

def isJavaFile (path : String) : Bool := extension? path == some "java"

end Path

/-! ## Raw paths -/

namespace RawText

def slash : UInt8 := 0x2F

def dot : UInt8 := 0x2E

def isAbsolute (path : RawText) : Bool := path.bytes.head? == some slash

def join (directory path : RawText) : RawText :=
  ⟨Path.joinLists slash directory.bytes path.bytes⟩

/-- The pieces of a path between its slashes, also the empty ones. -/
def pieces (path : RawText) : List RawText := (Text.listPieces slash path.bytes).map mk

def isJavaName (name : RawText) : Bool :=
  (Path.cutList dot name.bytes).2 == some (Text.bytes "java")

end RawText

end ChangeImpact
