import ChangeImpact.Project.Build
import ChangeImpact.Proofs.Graph.Store
import ChangeImpact.Proofs.Graph.Walk
import ChangeImpact.Proofs.Lookup
import Mathlib.Data.List.Induction

/-!
# Which graph is built

The classes of the graph are the names of the units, and of the units of one name the
first alone counts: its references to names of units are the dependencies.

## Main definitions

* `UnitRefers`: a unit's name among the references of the first unit of another name.

## Main statements

* `GraphBuild.mem_accepted_iff`: of the units of one name the first is registered.
* `GraphBuild.mem_links_ofUnits`, `GraphBuild.affects_ofUnits`: the dependencies.
-/

namespace ChangeImpact

open Java

/-- Both are names of units, and the first unit of the second name refers to the first name. -/
def UnitRefers (basePackage : String) (units : List SourceUnit) (used user : String) : Prop :=
  used ∈ units.map SourceUnit.typeName ∧ user ∈ units.map SourceUnit.typeName ∧
    ∃ u, units.find? (·.typeName == user) = some u ∧ used ∈ u.references basePackage

namespace GraphBuild

/-! ## Registering the classes -/

/-- What registering some units leads to: their first units are accepted, and these are the
classes of a graph without dependencies. -/
structure Registration.Of (r : Registration) (units : List SourceUnit) : Prop where
  nodes : r.graph.nodes = r.accepted.map nodeOf
  links : r.graph.links = []
  first : ∀ name, r.accepted.find? (·.typeName == name) = units.find? (·.typeName == name)

theorem Registration.Of.names {r : Registration} {units : List SourceUnit} (h : r.Of units) :
    r.graph.nodes.map ClassNode.name = r.accepted.map SourceUnit.typeName := by
  rw [h.nodes, List.map_map]
  rfl

theorem Registration.Of.find?_graph_eq_none {r : Registration} {units : List SourceUnit}
    (h : r.Of units) (name : String) :
    r.graph.find? name = none ↔ units.find? (·.typeName == name) = none := by
  rw [← h.first, Graph.find?_eq_none_iff, h.names]
  simp

/-- One case for a new name and one for a name that is taken; the graph knows a name when the units
do. -/
theorem Registration.Of.add {r : Registration} {units : List SourceUnit} (h : r.Of units)
    (u : SourceUnit) : (r.add u).Of (units ++ [u]) := by
  rcases r.graph.register_cases (nodeOf u) with
    ⟨kept, taken, rejected⟩ | ⟨free, g, ok, nodes, links⟩
  · have known : units.find? (·.typeName == u.typeName) ≠ none := by
      intro unknown
      have free := (h.find?_graph_eq_none u.typeName).2 unknown
      exact Option.some_ne_none kept (taken.symm.trans free)
    unfold Registration.add
    rw [rejected]
    refine ⟨h.nodes, h.links, fun name => ?_⟩
    rw [List.find?_append, h.first]
    by_cases same : u.typeName = name
    · obtain ⟨v, hv⟩ := Option.ne_none_iff_exists'.1 (same ▸ known)
      simp [hv]
    · simp [same]
  · unfold Registration.add
    rw [ok]
    refine ⟨?_, links.trans h.links, fun name => ?_⟩
    · simp [nodes, h.nodes]
    · simp only [List.find?_append, h.first]

theorem register_of (units : List SourceUnit) : (register units).Of units := by
  -- Units are registered from the first on, so the induction takes them off at the end.
  induction units using List.reverseRecOn with
  | nil => exact ⟨rfl, rfl, fun _ => rfl⟩
  | append_singleton units u ih =>
    rw [register, List.foldl_append]
    exact ih.add u

/-- Of the units of one name the first is registered. -/
theorem mem_accepted_iff {units : List SourceUnit} {u : SourceUnit} {name : String} :
    u ∈ (register units).accepted ∧ u.typeName = name ↔
      units.find? (·.typeName == name) = some u := by
  have of := register_of units
  have distinct := of.names ▸ (register units).graph.names_nodup
  rw [← of.first, find?_name_eq_some_iff distinct]

theorem contains_register {units : List SourceUnit} {name : String} :
    (register units).graph.contains name = true ↔ name ∈ units.map SourceUnit.typeName := by
  rw [Graph.contains, Option.isSome_iff_ne_none, Ne, (register_of units).find?_graph_eq_none]
  simp

/-! ## Following the references -/

theorem graph_follow (l : Linking) (reference : String × String) :
    (l.follow reference).graph = (l.graph.connect reference.1 reference.2).1 := by
  unfold Linking.follow
  rcases l.graph.connect reference.1 reference.2 with ⟨g, outcome⟩
  cases outcome <;> rfl

/-- References between registered classes become dependencies, and no others. -/
theorem mem_links_foldl_follow (references : List (String × String)) (l : Linking)
    {e : String × String} :
    e ∈ (references.foldl Linking.follow l).graph.links ↔ e ∈ l.graph.links ∨
      e ∈ references ∧ l.graph.contains e.1 = true ∧ l.graph.contains e.2 = true := by
  induction references generalizing l with
  | nil => simp
  | cons reference rest ih =>
    rw [List.foldl_cons, ih, graph_follow]
    simp only [Graph.mem_links_connect, Graph.contains_connect, List.mem_cons]
    grind

theorem mem_referencesOf {basePackage : String} {units : List SourceUnit} {user used : String} :
    (user, used) ∈ referencesOf basePackage units ↔
      ∃ u ∈ units, u.typeName = user ∧ used ∈ u.references basePackage := by
  simp only [referencesOf, List.mem_flatMap, List.mem_map, Prod.mk.injEq, NameSet.mem_def]
  grind

/-- The dependencies are the references of the first unit of each name to names of units. -/
theorem mem_links_ofUnits {basePackage : String} {units : List SourceUnit}
    {user used : String} :
    (user, used) ∈ (ofUnits basePackage units).graph.links ↔
      UnitRefers basePackage units used user := by
  have followed : (ofUnits basePackage units).graph
      = ((referencesOf basePackage (register units).accepted).foldl Linking.follow
          { graph := (register units).graph }).graph := rfl
  rw [followed, mem_links_foldl_follow, (register_of units).links, mem_referencesOf,
    contains_register, contains_register]
  simp only [List.not_mem_nil, false_or]
  constructor
  · rintro ⟨⟨u, hu, name, refers⟩, registered, target⟩
    exact ⟨target, registered, u, mem_accepted_iff.1 ⟨hu, name⟩, refers⟩
  · rintro ⟨target, registered, u, first, refers⟩
    obtain ⟨hu, name⟩ := mem_accepted_iff.2 first
    exact ⟨⟨u, hu, name, refers⟩, registered, target⟩

/-- A change spreads from a class to those whose first unit refers to it. -/
theorem affects_ofUnits (basePackage : String) (units : List SourceUnit) :
    (ofUnits basePackage units).graph.Affects = UnitRefers basePackage units := by
  funext used user
  rw [Graph.Affects, Graph.mem_dependencies]
  exact propext mem_links_ofUnits

end GraphBuild

end ChangeImpact
