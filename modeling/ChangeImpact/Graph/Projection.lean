import ChangeImpact.Graph.Basic
import ChangeImpact.Json.Basic

/-!
# Projections of a graph

A projection is a graph without some of its classes, written out for a reader:
every class with the classes it uses and the classes that use it.
-/

namespace ChangeImpact

structure Neighbourhood where
  dependsOn : List String
  dependedOnBy : List String
deriving DecidableEq, Inhabited

/-- The classes that are kept, each with its neighbourhood. -/
@[ext] structure Projection where
  entries : List (String × Neighbourhood)
  /-- The classes come in the order of their names, each of them once. -/
  sorted : (entries.map Prod.fst).Pairwise (· < ·)
deriving DecidableEq

def Graph.project (g : Graph) (excluded : NameSet) : Projection :=
  let kept := fun n => !excluded.contains n
  { entries := (g.names.filter kept).toList.map fun n =>
      (n, ⟨((g.dependencies n).filter kept).toList, ((g.dependents n).filter kept).toList⟩)
    sorted := by
      rw [List.map_map]
      simpa [Function.comp_def] using (g.names.filter kept).sorted }

namespace Projection

instance : Inhabited Projection := ⟨Graph.empty.project ∅⟩

def size (p : Projection) : Nat := p.entries.length

def isEmpty (p : Projection) : Bool := p.entries.isEmpty

def find? (p : Projection) (name : String) : Option Neighbourhood := p.entries.lookup name

def toJson (p : Projection) : Json :=
  .object (p.entries.map fun (name, n) =>
    (name, .object
      [("dependsOn", .strings n.dependsOn), ("dependedOnBy", .strings n.dependedOnBy)]))

end Projection

end ChangeImpact
