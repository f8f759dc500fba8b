/-!
# Spans of time

A span of time in nanoseconds, and its short text: the largest unit of which there is
at least one, with a fraction as long as it has to be.
-/

namespace ChangeImpact

structure Duration where
  nanoseconds : Nat
deriving DecidableEq, Inhabited

namespace Duration

def ofSeconds (n : Nat) : Duration := ⟨n * 1000000000⟩

def ofMilliseconds (n : Nat) : Duration := ⟨n * 1000000⟩

/-- The digits of a fraction of so many places, without zeros at the end. -/
def fractionDigits (places n : Nat) : List Char :=
  let digits := Nat.toDigits 10 n
  let padded := List.replicate (places - digits.length) '0' ++ digits
  (padded.reverse.dropWhile (· == '0')).reverse

/-- A number of units, each of `10 ^ places` nanoseconds. -/
def inUnits (d : Duration) (places : Nat) (symbol : String) : String :=
  let size := Nat.pow 10 places
  let fraction := fractionDigits places (d.nanoseconds % size)
  let digits := if fraction.isEmpty then "" else "." ++ String.ofList fraction
  toString (d.nanoseconds / size) ++ digits ++ symbol

def text (d : Duration) : String :=
  if 1000000000 ≤ d.nanoseconds then d.inUnits 9 "s"
  else if 1000000 ≤ d.nanoseconds then d.inUnits 6 "ms"
  else if 1000 ≤ d.nanoseconds then d.inUnits 3 "µs"
  else d.inUnits 0 "ns"

end Duration

end ChangeImpact
