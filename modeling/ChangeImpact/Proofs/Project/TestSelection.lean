import ChangeImpact.Project.Summary
import ChangeImpact.Proofs.Graph.Selection
import ChangeImpact.Proofs.Project.Build
import ChangeImpact.Proofs.Text.Sink

/-!
# From source units to the tests that are run

A test is run if it is the first test of a class that a change of the sources reaches.
Both sides are read off the units: which unit is the first test of a class, and along
which references of which units the change spreads.

## Main definitions

* `SourceUnit.Covers`: a unit is a test of a class.

## Main statements

* `TestMap.find?_ofUnits`: the first unit that is a test of a class gives its test.
* `selectedTests_exact`: which tests are selected and printed.
-/

namespace ChangeImpact

open Java

/-! ## The test map -/

/-- The unit is named for a test of the class, and it is run as one. -/
def Java.SourceUnit.Covers (u : SourceUnit) (name : String) : Prop :=
  name ≠ "" ∧ u.typeName = name ++ "Test" ∧
    (u.hasAnnotation "SpringBootTest" = true ∨ u.declaresTest = true)

instance {u : SourceUnit} {name : String} : Decidable (u.Covers name) :=
  inferInstanceAs (Decidable (_ ∧ _))

theorem dropEnd?_eq_some_iff_append {s tail start : String} :
    Text.dropEnd? s tail = some start ↔ s = start ++ tail := by
  rw [Text.dropEnd?_eq_some_iff, ← String.toList_append, String.toList_inj]

/-- A unit is a test of at most one class, and there it is known by its qualified name. -/
theorem testTarget?_eq_some_iff {u : SourceUnit} {name test : String} :
    u.testTarget? = some (name, test) ↔ u.Covers name ∧ u.qualifiedName = test := by
  unfold SourceUnit.testTarget? SourceUnit.Covers
  rw [← dropEnd?_eq_some_iff_append]
  cases Text.dropEnd? u.typeName "Test" with
  | none => simp
  | some c =>
    simp only [SourceUnit.isTest]
    grind

/-- An entry that is there comes first, so the first test of a class stays. -/
theorem TestMap.find?_addIfAbsent (m : TestMap) (name test c : String) :
    (m.addIfAbsent name test).find? c
      = (m.find? c).or (if c = name then some test else none) := by
  unfold addIfAbsent
  split_ifs with present same same
  · obtain ⟨kept, h⟩ := Option.isSome_iff_exists.1 present
    rw [same, h]
    rfl
  · simp
  · simp [find?, List.lookup_append, same]
  · simp [find?, List.lookup_append, same]

/-- Pairs that are added one after another are looked up behind what is there. -/
theorem TestMap.find?_foldl_addIfAbsent (pairs : List (String × String)) (m : TestMap)
    (c : String) :
    (pairs.foldl (fun tests (tested, test) => tests.addIfAbsent tested test) m).find? c
      = (m.find? c).or (pairs.lookup c) := by
  induction pairs generalizing m with
  | nil => simp
  | cons pair rest ih =>
    obtain ⟨tested, test⟩ := pair
    rw [List.foldl_cons, ih, find?_addIfAbsent, Option.or_assoc]
    by_cases same : c = tested
    · rw [if_pos same, same, List.lookup_cons_self, Option.some_or]
    · rw [if_neg same, Option.none_or, lookup_cons_of_ne same]

/-- The first unit that is a test of a class gives its test. -/
theorem TestMap.find?_ofUnits (units : List SourceUnit) (c : String) :
    (TestMap.ofUnits units).find? c
      = (units.find? fun u => decide (u.Covers c)).map SourceUnit.qualifiedName := by
  have empty : TestMap.empty.find? c = none := rfl
  rw [ofUnits, find?_foldl_addIfAbsent, empty, Option.none_or]
  induction units with
  | nil => rfl
  | cons u rest ih =>
    rw [List.filterMap_cons]
    by_cases covers : u.Covers c
    · have target := testTarget?_eq_some_iff.2 ⟨covers, rfl⟩
      simp [target, covers]
    · have other : ∀ test, u.testTarget? ≠ some (c, test) := by
        intro test target
        exact covers (testTarget?_eq_some_iff.1 target).1
      rw [List.find?_cons_of_neg (by simpa using covers), ← ih]
      cases target : u.testTarget? with
      | none => simp
      | some pair =>
        have different : c ≠ pair.1 := by
          rintro rfl
          exact other pair.2 target
        exact lookup_cons_of_ne different _

/-! ## Printing -/

/-- Without a limit all selected tests are printed, each on a line, in the order of selection. -/
theorem Outcome.writeTests_of_no_limit (o : Outcome) :
    o.writeTests {}
      = ({ taken := (o.analysis.selection.ids.map (· ++ "\n")).flatMap Text.bytes }, true) := by
  rw [writeTests, Sink.writeAll_eq_write, Sink.write_of_no_limit rfl]
  rfl

/-- The tests selected for a change, and printed once each, are the first tests of the classes
that the change spreads to along the references of the first units of their names. -/
theorem selectedTests_exact (sources tests : List SourceUnit) (basePackage : String)
    (changed excluded : NameSet) (o : Outcome) :
    let graph := (GraphBuild.ofUnits basePackage sources).graph
    let analysis := graph.analyze changed (TestMap.ofUnits tests) excluded
    let selected := analysis.selection.ids
    (∀ t, t ∈ selected ↔ ∃ c,
      (∃ u, tests.find? (fun u => decide (u.Covers c)) = some u ∧ u.qualifiedName = t) ∧
      ∃ x ∈ changed, ∃ names, Walk (UnitRefers basePackage sources) x c names) ∧
    selected.Nodup ∧
    { o with analysis }.writeTests {}
      = ({ taken := (selected.map (· ++ "\n")).flatMap Text.bytes }, true) := by
  intro graph analysis selected
  refine ⟨fun t => ?_, Selection.nodup_ids _, Outcome.writeTests_of_no_limit _⟩
  have affected : graph.Affects = UnitRefers basePackage sources :=
    GraphBuild.affects_ofUnits basePackage sources
  rw [show selected = ((graph.propagate changed).selectTests (TestMap.ofUnits tests)).ids from rfl,
    Graph.mem_ids_selectTests]
  simp only [TestMap.find?_ofUnits, Option.map_eq_some_iff, Graph.mem_order_propagate, affected]

end ChangeImpact
