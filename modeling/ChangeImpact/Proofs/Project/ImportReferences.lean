import ChangeImpact.Proofs.Graph.Observation
import ChangeImpact.Proofs.Project.Build

/-!
# References through imports

An import is a reference if its text begins with the base package. Every import from under the
package begins so, but so does one from another package whose name only goes on where the name of
the base package ends, and it is counted as well. Where no import is of that kind, exactly those
from under the package count.

## Main definitions

* `isUnder`: a name lies under a package.
* `SourceUnit.withoutImport`: a unit from which an import is taken.

## Main statements

* `SourceUnit.mem_references_iff`: what imports add to the references.
* `SourceUnit.references_withoutImport_exact`: which imports matter.
* `SourceUnit.references_of_longer_package`: an import that matters and is not under the package.
-/

namespace ChangeImpact.Java

/-- Whether a name lies under a package: it begins with the package and a dot. -/
def isUnder (package name : String) : Bool := Text.startsWith name (package ++ ".")

/-- Not the other way round: a package whose name merely goes on begins the same way. -/
theorem startsWith_of_isUnder {package name : String} (h : isUnder package name = true) :
    Text.startsWith name package = true := by
  obtain ⟨rest, chars⟩ := Text.startsWith_iff.1 h
  rw [String.toList_append, List.append_assoc] at chars
  exact Text.startsWith_iff.2 ⟨_, chars⟩

namespace SourceUnit

def withoutImport (u : SourceUnit) (name : String) : SourceUnit :=
  { u with imports := u.imports.filter (· != name) }

variable {u : SourceUnit} {basePackage : String}

/-- Imports add the last segments of those that begin as the base package does. The other
references are there without any import. -/
theorem mem_references_iff {simple : String} :
    simple ∈ u.references basePackage ↔
      (∃ i ∈ u.imports, Text.startsWith i basePackage = true ∧ simpleName i = simple) ∨
      simple ∈ { u with imports := [] }.references basePackage := by
  simp only [references, importReferences, NameSet.mem_ofList, List.mem_append, List.mem_map,
    List.mem_filter, List.filter_nil, List.map_nil, List.not_mem_nil, false_or, and_assoc, or_assoc]
  exact Iff.rfl

theorem mem_references_of_import {i : String} (mem : i ∈ u.imports)
    (counts : Text.startsWith i basePackage = true) : simpleName i ∈ u.references basePackage :=
  mem_references_iff.2 (.inl ⟨i, mem, counts, rfl⟩)

/-- Only the last segment of an import that counts can be lost with it. -/
theorem mem_references_iff_withoutImport {simple : String} (i : String) :
    simple ∈ u.references basePackage ↔ simple ∈ (u.withoutImport i).references basePackage ∨
      (i ∈ u.imports ∧ Text.startsWith i basePackage = true ∧ simpleName i = simple) := by
  have kept (j : String) : j ∈ (u.withoutImport i).imports ↔ j ∈ u.imports ∧ j ≠ i := by
    simp [withoutImport]
  have others : { u.withoutImport i with imports := [] } = { u with imports := [] } := rfl
  rw [mem_references_iff, mem_references_iff (u := u.withoutImport i), others]
  simp only [kept]
  constructor
  · rintro (⟨j, mem, counts, rfl⟩ | other)
    · by_cases same : j = i
      · subst same
        exact .inr ⟨mem, counts, rfl⟩
      · exact .inl (.inl ⟨j, ⟨mem, same⟩, counts, rfl⟩)
    · exact .inl (.inr other)
  · rintro ((⟨j, ⟨mem, -⟩, counts, rfl⟩ | other) | ⟨mem, counts, rfl⟩)
    · exact .inl ⟨j, mem, counts, rfl⟩
    · exact .inr other
    · exact .inl ⟨i, mem, counts, rfl⟩

/-- Taking an import away changes nothing, unless its text begins with the base package and
nothing else refers to its last segment. So an import from under the package is a reference, and
where all imports that begin with the package are under it, no other import matters. -/
theorem references_withoutImport_exact (u : SourceUnit) (basePackage i : String) :
    ((u.withoutImport i).references basePackage = u.references basePackage ↔
      (i ∈ u.imports → Text.startsWith i basePackage = true →
        simpleName i ∈ (u.withoutImport i).references basePackage)) ∧
    (i ∈ u.imports → isUnder basePackage i = true → simpleName i ∈ u.references basePackage) ∧
    ((∀ j ∈ u.imports, Text.startsWith j basePackage = true → isUnder basePackage j = true) →
      isUnder basePackage i = false →
        (u.withoutImport i).references basePackage = u.references basePackage) := by
  have unchanged : (u.withoutImport i).references basePackage = u.references basePackage ↔
      (i ∈ u.imports → Text.startsWith i basePackage = true →
        simpleName i ∈ (u.withoutImport i).references basePackage) := by
    constructor
    · intro same mem counts
      rw [same]
      exact mem_references_of_import mem counts
    · intro elsewhere
      refine NameSet.ext fun simple => ?_
      rw [mem_references_iff_withoutImport (u := u) i]
      constructor
      · exact .inl
      · rintro (kept | ⟨mem, counts, rfl⟩)
        · exact kept
        · exact elsewhere mem counts
  refine ⟨unchanged, fun mem under => ?_, fun apart outside => unchanged.2 fun mem counts => ?_⟩
  · exact mem_references_of_import mem (startsWith_of_isUnder under)
  · rw [apart i mem counts] at outside
    cases outside

/-- A unit that imports a class of the project and one of the library. -/
def shopImports : SourceUnit where
  path := "Cart.java"
  typeName := "Cart"
  imports := ["com.shop.domain.Order", "java.util.List"]

theorem references_withoutImport_shopImports :
    (∀ j ∈ shopImports.imports,
      Text.startsWith j "com.shop" = true → isUnder "com.shop" j = true) ∧
    "Order" ∈ shopImports.references "com.shop" ∧
    (shopImports.withoutImport "java.util.List").references "com.shop"
      = shopImports.references "com.shop" := by
  have apart : ∀ j ∈ shopImports.imports,
      Text.startsWith j "com.shop" = true → isUnder "com.shop" j = true := by
    decide
  have order := references_withoutImport_exact shopImports "com.shop" "com.shop.domain.Order"
  have list := references_withoutImport_exact shopImports "com.shop" "java.util.List"
  exact ⟨apart, order.2.1 (by decide) (by decide), list.2.2 apart (by decide)⟩

/-- An import from a package whose name begins like the base package counts, although it is not
under the base package: the class of the project that has the same simple name becomes a
dependency. -/
theorem references_of_longer_package :
    let cart : SourceUnit :=
      { path := "Cart.java", typeName := "Cart", imports := ["com.shopping.Order"] }
    let order : SourceUnit :=
      { path := "Order.java", packageName? := some "com.shop", typeName := "Order" }
    "com.shopping.Order" ∈ cart.imports ∧ isUnder "com.shop" "com.shopping.Order" = false ∧
    (cart.references "com.shop").toList = ["Order"] ∧
    ((cart.withoutImport "com.shopping.Order").references "com.shop").toList = [] ∧
    ("Cart", "Order") ∈ (GraphBuild.ofUnits "com.shop" [cart, order]).graph.edges := by
  intro cart order
  have edge : ("Cart", "Order") ∈ (GraphBuild.ofUnits "com.shop" [cart, order]).graph.edges := by
    rw [Graph.mem_edges, GraphBuild.mem_links_ofUnits]
    exact ⟨by decide, by decide, cart, by decide, by decide⟩
  exact ⟨by decide, by decide, by decide, by decide, edge⟩

end SourceUnit

end ChangeImpact.Java
