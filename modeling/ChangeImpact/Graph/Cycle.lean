/-!
# Dependency cycles

A cycle lists the classes of a closed walk; its first name is repeated at the
end. Where a search happens to enter a ring is accidental, so every cycle has a
canonical form that starts at its least name.

## Main definitions

* `Cycle.ring`: the names without the closing one.
* `Cycle.canonical`: the cycle entered at its least name.
* `CycleReport`: what a search for cycles finds.
-/

namespace ChangeImpact

/-- The classes of a closed walk, with the first one repeated at the end. -/
structure Cycle where
  names : List String
deriving DecidableEq, Inhabited

/-- The least of a name and further names; of equal ones it is all the same. -/
def leastName (x : String) (xs : List String) : String :=
  xs.foldl (fun least y => if y < least then y else least) x

/-- A ring entered at the first occurrence of a name. -/
def rotateTo (name : String) (ring : List String) : List String :=
  ring.dropWhile (· != name) ++ ring.takeWhile (· != name)

namespace Cycle

/-- The classes on the cycle, the closing one left out. -/
def ring (c : Cycle) : List String := c.names.dropLast

def length (c : Cycle) : Nat := c.names.length - 1

def isEmpty (c : Cycle) : Bool := c.length == 0

def text (c : Cycle) : String := " -> ".intercalate c.names

/-- The same ring entered at its least name. -/
def canonical (c : Cycle) : Cycle :=
  match c.ring with
  | [] => c
  | x :: xs =>
    let least := leastName x xs
    ⟨rotateTo least (x :: xs) ++ [least]⟩

end Cycle

structure CycleReport where
  cycles : List Cycle := []
  /-- Dependencies of a searched class on an excluded one. -/
  pruned : List (String × String) := []
deriving DecidableEq, Inhabited

end ChangeImpact
