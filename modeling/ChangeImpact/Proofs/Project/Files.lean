import ChangeImpact.Proofs.Graph.Observation
import ChangeImpact.Proofs.Project.Build

/-!
# The graph of a list of files

A file gives a unit, or nothing if it cannot be used or declares no type. The graph
knows the files by their units alone, and of the units of one name by the first. So
the order of the files matters only among those that declare a type of the same name.

## Main definitions

* `unit?`, `declares`: what a file gives, and whether it declares a type of some name.

## Main statements

* `GraphBuild.find?_ofUnits`: the class under a name is that of the first unit of the name.
* `GraphBuild.ofFiles_exact`: classes, dependencies and what the order of files decides.
-/

namespace ChangeImpact

open Java

def unit? (fs : FileSystem) (path : RawText) : Option SourceUnit :=
  (SourceUnit.ofFile fs path).toOption.join

theorem ofFile_of_unit? {fs : FileSystem} {path : RawText} {u : SourceUnit}
    (h : unit? fs path = some u) : SourceUnit.ofFile fs path = .ok (some u) := by
  rcases outcome : SourceUnit.ofFile fs path with _ | _ | v
  all_goals simp_all [unit?, Except.toOption]

def declares (fs : FileSystem) (name : String) (path : RawText) : Bool :=
  (unit? fs path).any (·.typeName == name)

/-- Files that fail and files without a type add no unit. -/
theorem Extracted.units_ofFiles (fs : FileSystem) (paths : List RawText) :
    (Extracted.ofFiles fs paths).units = paths.filterMap (unit? fs) := by
  rw [Extracted.ofFiles]
  induction paths with
  | nil => rfl
  | cons path rest ih =>
    rw [List.map_cons, List.filterMap_cons]
    rcases outcome : SourceUnit.ofFile fs path with _ | _ | u
    all_goals simp [unit?, outcome, Extracted.ofOutcomes, Except.toOption, ih]

namespace GraphBuild

/-- References add no classes. -/
theorem nodes_ofUnits (basePackage : String) (units : List SourceUnit) :
    (ofUnits basePackage units).graph.nodes = (register units).accepted.map nodeOf := by
  rw [← (register_of units).nodes]
  have kept : ∀ (references : List (String × String)) (l : Linking),
      (references.foldl Linking.follow l).graph.nodes = l.graph.nodes := by
    intro references
    induction references with
    | nil => exact fun _ => rfl
    | cons reference rest ih =>
      intro l
      rw [List.foldl_cons, ih, graph_follow, Graph.nodes_connect]
  exact kept _ _

/-- The class under a name is that of the first unit of the name. -/
theorem find?_ofUnits (basePackage : String) (units : List SourceUnit) (name : String) :
    (ofUnits basePackage units).graph.find? name
      = (units.find? (·.typeName == name)).map nodeOf := by
  rw [Graph.find?, nodes_ofUnits, List.find?_map, ← (register_of units).first]
  rfl

theorem mem_typeNames_iff {units : List SourceUnit} {name : String} :
    name ∈ units.map SourceUnit.typeName ↔
      (units.find? (·.typeName == name)).isSome = true := by
  rw [List.find?_isSome]
  simp

theorem contains_ofUnits {basePackage : String} {units : List SourceUnit} {name : String} :
    (ofUnits basePackage units).graph.contains name = true ↔
      name ∈ units.map SourceUnit.typeName := by
  rw [Graph.contains, find?_ofUnits, Option.isSome_map, mem_typeNames_iff]

/-- Lists of units that agree on the first unit of every name give graphs of one shape. -/
theorem sameShape_ofUnits (basePackage : String) {units units' : List SourceUnit}
    (first : ∀ name, units.find? (·.typeName == name) = units'.find? (·.typeName == name)) :
    (ofUnits basePackage units).graph.SameShape (ofUnits basePackage units').graph := by
  refine ⟨fun name => ?_, ?_⟩
  · rw [Graph.contains, Graph.contains, find?_ofUnits, find?_ofUnits, first]
  · rintro ⟨user, used⟩
    simp only [mem_links_ofUnits, UnitRefers, mem_typeNames_iff, first]

/-- Files that cannot be used or declare nothing leave no trace in the graph. -/
theorem graph_ofFiles (fs : FileSystem) (basePackage : String) (paths : List RawText) :
    (ofFiles fs basePackage paths).graph
      = (ofUnits basePackage (paths.filterMap (unit? fs))).graph := by
  rw [← Extracted.units_ofFiles]
  rfl

/-- The first unit of a name is that of the first file that declares it. -/
theorem find?_units (fs : FileSystem) (paths : List RawText) (name : String) :
    (paths.filterMap (unit? fs)).find? (·.typeName == name)
      = ((paths.filter (declares fs name)).head?).bind (unit? fs) := by
  rw [List.find?_filterMap, List.head?_filter]
  rfl

/-- The classes of a graph are the names of the files' units, each known by the path, package
and markers of the first unit of the name, and a class uses those unit names that this unit
refers to. So two lists of files that list the files of every one name in the same order, and
else differ in whatever way, give the same views. -/
theorem ofFiles_exact (fs : FileSystem) (basePackage : String) (paths : List RawText) :
    let units := paths.filterMap (unit? fs)
    let graph := (ofFiles fs basePackage paths).graph
    (∀ a, graph.contains a = true ↔ ∃ u ∈ units, u.typeName = a) ∧
    (∀ a, graph.find? a = (units.find? (·.typeName == a)).map fun u =>
      { name := u.typeName
        locator := u.path
        packageName := u.packageName?.getD ""
        entity := u.hasAnnotation "Entity"
        configuration := u.hasAnnotation "Configuration" }) ∧
    (∀ a b, (a, b) ∈ graph.edges ↔
      (∃ u ∈ units, u.typeName = a) ∧ (∃ u ∈ units, u.typeName = b) ∧
      ∃ u, units.find? (·.typeName == a) = some u ∧ b ∈ u.references basePackage) ∧
    ∀ paths', (∀ name, paths'.filter (declares fs name) = paths.filter (declares fs name)) →
      let graph' := (ofFiles fs basePackage paths').graph
      graph'.names = graph.names ∧ graph'.edges = graph.edges ∧
      ∀ name, graph'.find? name = graph.find? name := by
  intro units graph
  have built : graph = (ofUnits basePackage units).graph := graph_ofFiles fs basePackage paths
  have named : ∀ name, name ∈ units.map SourceUnit.typeName ↔ ∃ u ∈ units, u.typeName = name :=
    fun name => List.mem_map
  refine ⟨fun a => ?_, fun a => ?_, fun a b => ?_, fun paths' order => ?_⟩
  · rw [built, contains_ofUnits, named]
  · rw [built, find?_ofUnits]
    rfl
  · rw [Graph.mem_edges, built, mem_links_ofUnits, UnitRefers, named, named]
    exact and_left_comm
  · intro graph'
    have built' : graph' = (ofUnits basePackage (paths'.filterMap (unit? fs))).graph :=
      graph_ofFiles fs basePackage paths'
    have first : ∀ name, (paths'.filterMap (unit? fs)).find? (·.typeName == name)
        = units.find? (·.typeName == name) := by
      intro name
      rw [find?_units, order, ← find?_units]
    have same : graph'.SameShape graph := built ▸ built' ▸ sameShape_ofUnits basePackage first
    refine ⟨same.names_eq, same.edges_eq, fun name => ?_⟩
    rw [built, built', find?_ofUnits, find?_ofUnits, first]

end GraphBuild

end ChangeImpact
