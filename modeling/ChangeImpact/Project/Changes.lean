import ChangeImpact.NameSet
import ChangeImpact.Path

/-!
# Changed classes

Which classes have changed, from a list of names or from the file names that a
comparison of two revisions prints.
-/

namespace ChangeImpact.Changes

/-- The names on a list, without blanks around them and without empty ones. -/
def ofNames (names : List String) : NameSet :=
  .ofList ((names.map Text.trim).filter (· != ""))

/-- The class that a line of file names stands for. -/
def stemOfLine? (line : String) : Option String :=
  let path := Text.trim line
  if Text.endsWith path ".java" then Path.stem? path else none

/-- The classes of the Java files that are listed line by line. -/
def ofFileNames (text : String) : NameSet :=
  .ofList ((Text.pieces '\n' text).filterMap stemOfLine?)

structure Comparison where
  output : ByteArray
  /-- Whether it ended well. -/
  succeeded : Bool

/-- The arguments that ask for the names of the files that differ. -/
def comparisonArguments (base head : String) : List String :=
  ["diff", "--name-only", base, head]

/-- The classes that a comparison names. None, if it could not be made, did not end well or
printed no text. -/
def ofComparison (comparison : Option Comparison) : NameSet :=
  match comparison with
  | some c =>
    if c.succeeded then
      match String.fromUTF8? c.output with
      | some text => ofFileNames text
      | none => .ofList []
    else .ofList []
  | none => .ofList []

end ChangeImpact.Changes
