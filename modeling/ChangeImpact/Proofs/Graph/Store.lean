import ChangeImpact.Graph.Basic
import Mathlib.Tactic.SplitIfs

/-!
# What registrations and connections do to a graph

A registration appends its class or leaves the graph as it is, and a connection adds
its pair to the dependencies if both ends are registered. Everything else about
building a graph follows from these two facts.
-/

namespace ChangeImpact

namespace Graph

/-- A class is turned away if its name is taken, and appended if it is not. -/
theorem register_cases (g : Graph) (node : ClassNode) :
    (∃ kept, g.find? node.name = some kept ∧
      g.register node = .error ⟨node.name, kept.locator, node.locator⟩) ∨
    (g.find? node.name = none ∧ ∃ g', g.register node = .ok g' ∧
      g'.nodes = g.nodes ++ [node] ∧ g'.links = g.links) := by
  unfold register
  split
  case h_1 kept taken => exact .inl ⟨kept, taken, rfl⟩
  case h_2 free => exact .inr ⟨free, _, rfl, rfl, rfl⟩

@[simp] theorem nodes_connect (g : Graph) (user used : String) :
    (g.connect user used).1.nodes = g.nodes := by
  unfold connect
  split_ifs <;> rfl

theorem contains_connect (g : Graph) (user used name : String) :
    (g.connect user used).1.contains name = g.contains name := by
  simp [contains, find?]

/-- A dependency is taken only between registered classes; the same call twice adds nothing. -/
theorem mem_links_connect {g : Graph} {user used : String} {e : String × String} :
    e ∈ (g.connect user used).1.links ↔ e ∈ g.links ∨
      e = (user, used) ∧ g.contains user = true ∧ g.contains used = true := by
  unfold connect
  split_ifs with ends present
  · constructor
    · exact .inl
    · rintro (old | ⟨rfl, -⟩)
      · exact old
      · exact present
  · simp [ends]
  · simp [ends]

/-! ## Sequences of calls -/

/-- A call that builds a graph. -/
inductive Edit where
  | register (node : ClassNode)
  | connect (user used : String)
deriving DecidableEq

/-- A class that is turned away and a dependency that is dropped leave the graph as it is. -/
def edit (g : Graph) : Edit → Graph
  | .register node =>
    match g.register node with
    | .ok g' => g'
    | .error _ => g
  | .connect user used => (g.connect user used).1

def ofEdits (edits : List Edit) : Graph := edits.foldl edit empty

/-- The graph of some names with dependencies between them, and nothing else known of its
classes. -/
def ofNames (names : List String) (links : List (String × String)) : Graph :=
  ofEdits (names.map (fun n => .register { name := n, locator := "" }) ++
    links.map fun (user, used) => .connect user used)

end Graph

end ChangeImpact
