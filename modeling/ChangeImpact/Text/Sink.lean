import ChangeImpact.Text.Raw

/-!
# Sinks

Where a program writes to. A sink takes bytes up to its limit, if it has one, and
then is closed: it takes what still fits and reports that the rest was lost.
-/

namespace ChangeImpact

structure Sink where
  /-- How many bytes it takes, if not any number. -/
  limit? : Option Nat := none
  taken : List UInt8 := []

namespace Sink

/-- How many of some bytes a sink still takes. -/
def room (s : Sink) (bytes : List UInt8) : Nat :=
  match s.limit? with
  | none => bytes.length
  | some limit => min bytes.length (limit - s.taken.length)

/-- Write bytes, and tell whether all of them were taken. -/
def write (s : Sink) (bytes : List UInt8) : Sink × Bool :=
  let n := s.room bytes
  ({ s with taken := s.taken ++ bytes.take n }, n == bytes.length)

/-- Write texts one after another, up to the first that is not taken as a whole. -/
def writeAll (s : Sink) : List String → Sink × Bool
  | [] => (s, true)
  | text :: rest =>
    match s.write (Text.bytes text) with
    | (s, true) => s.writeAll rest
    | (s, false) => (s, false)

/-- The text of some bytes without the last so many. -/
def textWithout (bytes : List UInt8) (count : Nat) : Option String :=
  String.fromUTF8? ⟨(bytes.take (bytes.length - count)).toArray⟩

/-- What can be read of what a sink has taken. Of a character at the end that was cut in two,
nothing is shown; no character has more than four bytes. -/
def text (s : Sink) : String :=
  (((textWithout s.taken 0).or (textWithout s.taken 1)).or (textWithout s.taken 2)).or
    (textWithout s.taken 3) |>.getD ""

end Sink

end ChangeImpact
