import Mathlib.Data.Set.Card
import ChangeImpact.Proofs.Graph.ImpactClosure
import ChangeImpact.Proofs.Java.TypeNames
import ChangeImpact.Proofs.Project.Files
import ChangeImpact.Proofs.Project.TestSelection

/-!
# The test map of a list of units

The first unit that is a test of a class is its test. The class can be read off the name of the
test, whatever the package, as no type name has a dot in it. So no test is shared by two classes,
and no class that a change affects goes without its test because another class has taken it.

## Main statements

* `Extracted.dot_notMem_typeName`: the units of files have type names without a dot.
* `TestMap.find?_ofUnits_eq_some_iff`: the first unit that is a test of a class is kept.
* `Graph.encard_impacted_inter`: as many tests are selected as affected classes have one.
* `TestMap.ofUnits_exact`: all of this for the map of a list of units.
-/

namespace ChangeImpact

open Java

/-! ## Names without a dot -/

/-- The units of files have type names without a dot. -/
theorem Extracted.dot_notMem_typeName (fs : FileSystem) (paths : List RawText) :
    ∀ u ∈ (Extracted.ofFiles fs paths).units, '.' ∉ u.typeName.toList := by
  intro u mem
  rw [units_ofFiles] at mem
  obtain ⟨path, -, unit⟩ := List.mem_filterMap.1 mem
  exact dot_notMem_of_isWordText (SourceUnit.isWordText_typeName (ofFile_of_unit? unit))

/-- The package can be taken off a name again. -/
theorem Java.SourceUnit.simpleName_qualifiedName {u : SourceUnit}
    (noDot : '.' ∉ u.typeName.toList) : simpleName u.qualifiedName = u.typeName := by
  rw [simpleName, Text.afterLast, qualifiedName]
  cases u.packageName? with
  | none => rw [Text.listAfterLast_of_not_mem noDot, String.ofList_toList]
  | some package =>
    have chars : (package ++ "." ++ u.typeName).toList
        = package.toList ++ '.' :: u.typeName.toList := by simp
    rw [chars, Text.listAfterLast_append_cons noDot, String.ofList_toList]

/-! ## Entries -/

namespace TestMap

variable {m : TestMap} {c t : String} {units : List SourceUnit}

theorem mem_entries_iff : (c, t) ∈ m.entries ↔ m.find? c = some t :=
  (lookup_eq_some_iff_mem m.distinct).symm

/-! ## The first test of a class -/

theorem forall_testTarget?_ne_iff {u : SourceUnit} :
    (∀ test, u.testTarget? ≠ some (c, test)) ↔ ¬ u.Covers c := by
  simp only [ne_eq, testTarget?_eq_some_iff, not_and]
  constructor
  · intro none covers
    exact none _ covers rfl
  · exact fun other _ covers => absurd covers other

/-- The first unit that is a test of a class is kept. -/
theorem find?_ofUnits_eq_some_iff :
    (ofUnits units).find? c = some t ↔ ∃ before u after, units = before ++ u :: after ∧
      u.testTarget? = some (c, t) ∧ ∀ v ∈ before, ∀ test, v.testTarget? ≠ some (c, test) := by
  simp only [forall_testTarget?_ne_iff, testTarget?_eq_some_iff]
  rw [find?_ofUnits, Option.map_eq_some_iff]
  constructor
  · rintro ⟨u, first, name⟩
    obtain ⟨covers, before, after, split, others⟩ := List.find?_eq_some_iff_append.1 first
    exact ⟨before, u, after, split, ⟨of_decide_eq_true covers, name⟩, by simpa using others⟩
  · rintro ⟨before, u, after, split, ⟨covers, name⟩, others⟩
    refine ⟨u, List.find?_eq_some_iff_append.2 ?_, name⟩
    exact ⟨decide_eq_true covers, before, after, split, by simpa using others⟩

/-- A class has a test as soon as some unit is one. -/
theorem isSome_find?_ofUnits :
    ((ofUnits units).find? c).isSome = true ↔
      ∃ u ∈ units, ∃ test, u.testTarget? = some (c, test) := by
  rw [find?_ofUnits, Option.isSome_map, List.find?_isSome]
  simp [testTarget?_eq_some_iff]

/-- The class can be read off the name of its test. -/
theorem simpleName_of_find?_ofUnits (noDots : ∀ u ∈ units, '.' ∉ u.typeName.toList)
    (found : (ofUnits units).find? c = some t) : c ≠ "" ∧ simpleName t = c ++ "Test" := by
  obtain ⟨before, u, after, split, target, -⟩ := find?_ofUnits_eq_some_iff.1 found
  obtain ⟨⟨nonempty, name, -⟩, rfl⟩ := testTarget?_eq_some_iff.1 target
  have mem : u ∈ units := by simp [split]
  exact ⟨nonempty, (SourceUnit.simpleName_qualifiedName (noDots u mem)).trans name⟩

/-- No test is that of two classes. -/
theorem eq_of_find?_ofUnits {d : String} (noDots : ∀ u ∈ units, '.' ∉ u.typeName.toList)
    (left : (ofUnits units).find? c = some t) (right : (ofUnits units).find? d = some t) :
    c = d := by
  have name := (simpleName_of_find?_ofUnits noDots left).2
  rw [(simpleName_of_find?_ofUnits noDots right).2, ← String.toList_inj, String.toList_append,
    String.toList_append] at name
  exact String.toList_inj.1 (List.append_cancel_right name).symm

end TestMap

/-! ## Selected tests -/

/-- If no test is shared, as many tests are selected as affected classes have one. -/
theorem Graph.encard_impacted_inter (g : Graph) (changed : NameSet) {m : TestMap}
    (apart : ∀ c d t, m.find? c = some t → m.find? d = some t → c = d) :
    (g.impacted changed ∩ { c | (m.find? c).isSome = true }).encard
      = ((g.propagate changed).selectTests m).size := by
  let order := (g.propagate changed).order
  let ids := ((g.propagate changed).selectTests m).ids
  have distinct : order.Nodup := g.nodup_order_propagate changed
  have mapped : (order.filterMap m.find?).Nodup :=
    distinct.filterMap fun c d t left right => apart c d t left right
  have sameTests : ids.Perm (order.filterMap m.find?) := by
    refine (List.perm_ext_iff_of_nodup (Selection.nodup_ids _) mapped).2 fun t => ?_
    rw [mem_ids_selectTests, List.mem_filterMap]
    simp only [and_comm, order]
  have classes : g.impacted changed ∩ { c | (m.find? c).isSome = true }
      = (order.filter fun c => (m.find? c).isSome).toFinset := by
    ext c
    simp [impacted, order, Impact.contains_iff]
  calc (g.impacted changed ∩ { c | (m.find? c).isSome = true }).encard
      = ((order.filter fun c => (m.find? c).isSome).length : ℕ∞) := by
        rw [classes, Set.encard_coe_eq_coe_finsetCard,
          List.toFinset_card_of_nodup (distinct.filter _)]
    _ = ((order.filterMap m.find?).length : ℕ∞) := by
        rw [List.length_filterMap_eq_countP, List.countP_eq_length_filter]
    _ = (ids.length : ℕ∞) := by rw [sameTests.length_eq]
    _ = ((g.propagate changed).selectTests m).size := by
        rw [Selection.size, ← List.length_map SelectedTest.test]
        rfl

/-- Type names of files have no dot in them. For units of such names, a class has a test exactly
if some unit is one, and then the first such unit is its test. The name of the test says which
class it is for, so no two classes share one and each affected class that has a test adds one to
the selection. -/
theorem TestMap.ofUnits_exact :
    (∀ fs paths, ∀ u ∈ (Extracted.ofFiles fs paths).units, '.' ∉ u.typeName.toList) ∧
    ∀ units : List SourceUnit, (∀ u ∈ units, '.' ∉ u.typeName.toList) →
      let m := TestMap.ofUnits units
      (m.entries.map Prod.fst).Nodup ∧ (∀ c t, (c, t) ∈ m.entries ↔ m.find? c = some t) ∧
      (∀ c, (m.find? c).isSome = true ↔ ∃ u ∈ units, ∃ t, u.testTarget? = some (c, t)) ∧
      (∀ c t, m.find? c = some t ↔ ∃ before u after, units = before ++ u :: after ∧
        u.testTarget? = some (c, t) ∧ ∀ v ∈ before, ∀ test, v.testTarget? ≠ some (c, test)) ∧
      (∀ c t, m.find? c = some t → c ≠ "" ∧ simpleName t = c ++ "Test") ∧
      (∀ c d t, m.find? c = some t → m.find? d = some t → c = d) ∧
      ∀ (g : Graph) (changed : NameSet),
        (g.impacted changed ∩ { c | (m.find? c).isSome = true }).encard
          = ((g.propagate changed).selectTests m).size := by
  refine ⟨Extracted.dot_notMem_typeName, fun units noDots => ?_⟩
  have apart : ∀ c d t, (ofUnits units).find? c = some t → (ofUnits units).find? d = some t →
      c = d := fun _ _ _ left right => eq_of_find?_ofUnits noDots left right
  refine ⟨(ofUnits units).distinct, fun _ _ => mem_entries_iff,
    fun _ => isSome_find?_ofUnits, fun _ _ => find?_ofUnits_eq_some_iff,
    fun _ _ => simpleName_of_find?_ofUnits noDots, apart, fun g changed => ?_⟩
  exact g.encard_impacted_inter changed apart

/-- Two tests of one class in different packages, a test without a package, and one of no class. -/
def shopTests : List SourceUnit :=
  [{ path := "b/OrderTest.java", packageName? := some "b", typeName := "OrderTest",
     declaresTest := true },
   { path := "a/OrderTest.java", packageName? := some "a", typeName := "OrderTest",
     annotations := ["SpringBootTest"] },
   { path := "CartTest.java", typeName := "CartTest", declaresTest := true },
   { path := "Test.java", typeName := "Test", declaresTest := true }]

theorem TestMap.ofUnits_shopTests :
    let m := TestMap.ofUnits shopTests
    let changed := NameSet.ofList ["Basket", "Cart", "Order"]
    (∀ u ∈ shopTests, '.' ∉ u.typeName.toList) ∧ m.find? "Order" = some "b.OrderTest" ∧
    (∀ c, m.find? c = some "b.OrderTest" → c = "Order") ∧
    simpleName "b.OrderTest" = "Order" ++ "Test" ∧
    (Graph.empty.impacted changed ∩ { c | (m.find? c).isSome = true }).encard
      = ((Graph.empty.propagate changed).selectTests m).size := by
  intro m changed
  have noDots : ∀ u ∈ shopTests, '.' ∉ u.typeName.toList := by decide
  obtain ⟨-, -, -, first, named, apart, sizes⟩ := ofUnits_exact.2 shopTests noDots
  have order : m.find? "Order" = some "b.OrderTest" := by
    refine (first "Order" "b.OrderTest").2 ⟨[], shopTests[0], shopTests.drop 1, rfl, ?_, nofun⟩
    decide
  exact ⟨noDots, order, fun c found => apart c "Order" _ found order, (named _ _ order).2,
    sizes Graph.empty changed⟩

end ChangeImpact
