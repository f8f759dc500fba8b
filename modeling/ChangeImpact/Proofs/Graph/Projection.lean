import ChangeImpact.Graph.Projection
import ChangeImpact.Proofs.Graph.ClosedWalk
import ChangeImpact.Proofs.NameOrder
import Mathlib.Combinatorics.Enumerative.DoubleCounting

/-!
# What a projection shows

A projection keeps the classes that are not excluded and writes every dependency between
them down twice, once at either end. The two lists of a class are made independently, but
as both leave out the same classes they mirror each other over the whole projection.

## Main definitions

* `Projection.Shows`: a dependency is written down at both ends.
* `Projection.names`: the classes that are listed.

## Main statements

* `Graph.Uses.shows_project`: the projection shows the dependencies between classes that
  are not excluded.
* `Graph.sum_length_dependsOn_eq`: as many dependencies are written down where they start
  as where they end.
* `Graph.project_mirrored`: what is listed, where and in which order.
-/

namespace ChangeImpact

namespace Projection

/-- The dependency is listed with the class that has it and with the class it leads to. -/
def Shows (p : Projection) (user used : String) : Prop :=
  (∃ n, p.find? user = some n ∧ used ∈ n.dependsOn) ∧
    ∃ n, p.find? used = some n ∧ user ∈ n.dependedOnBy

def names (p : Projection) : List String := p.entries.map Prod.fst

end Projection

namespace Graph

variable {g : Graph} {excluded : NameSet} {n user used : String}

def neighbourhood (g : Graph) (excluded : NameSet) (n : String) : Neighbourhood where
  dependsOn := ((g.dependencies n).filter fun m => !excluded.contains m).toList
  dependedOnBy := ((g.dependents n).filter fun m => !excluded.contains m).toList

def kept (g : Graph) (excluded : NameSet) : NameSet := g.names.filter fun n => !excluded.contains n

theorem entries_project (g : Graph) (excluded : NameSet) :
    (g.project excluded).entries
      = (g.kept excluded).toList.map fun n => (n, g.neighbourhood excluded n) :=
  rfl

theorem names_project (g : Graph) (excluded : NameSet) :
    (g.project excluded).names = (g.kept excluded).toList := by
  rw [Projection.names, entries_project, List.map_map]
  exact List.map_id _

theorem mem_kept : n ∈ g.kept excluded ↔ n ∈ g.names ∧ n ∉ excluded := by
  simp [kept, NameSet.contains]

/-- A class is listed once, so the entry that is found is its own. -/
theorem find?_project (registered : n ∈ g.names) (kept : n ∉ excluded) :
    (g.project excluded).find? n = some (g.neighbourhood excluded n) :=
  List.lookup_graph (g.neighbourhood excluded) (mem_kept.2 ⟨registered, kept⟩)

theorem mem_dependsOn_neighbourhood :
    used ∈ (g.neighbourhood excluded user).dependsOn ↔
      used ∈ g.dependencies user ∧ used ∉ excluded := by
  simp [neighbourhood, ← NameSet.mem_def, NameSet.contains]

theorem mem_dependedOnBy_neighbourhood :
    user ∈ (g.neighbourhood excluded used).dependedOnBy ↔
      used ∈ g.dependencies user ∧ user ∉ excluded := by
  simp [neighbourhood, ← NameSet.mem_def, NameSet.contains]

/-- A dependency between classes that are not excluded is shown. -/
theorem Uses.shows_project (h : g.Uses excluded user used) :
    (g.project excluded).Shows user used := by
  obtain ⟨link, user_kept, used_kept⟩ := h
  have ends := g.ends_registered _ (mem_dependencies.1 link)
  refine ⟨⟨_, find?_project (mem_names.2 ends.1) user_kept, ?_⟩,
    ⟨_, find?_project (mem_names.2 ends.2) used_kept, ?_⟩⟩
  · exact mem_dependsOn_neighbourhood.2 ⟨link, used_kept⟩
  · exact mem_dependedOnBy_neighbourhood.2 ⟨link, user_kept⟩

/-! ## Both ends of the dependencies -/

/-- What is used is itself kept, so the lists of a projection name no class that it leaves out. -/
theorem mem_dependsOn_iff :
    used ∈ (g.neighbourhood excluded user).dependsOn ↔
      used ∈ g.kept excluded ∧ used ∈ g.dependencies user := by
  rw [mem_dependsOn_neighbourhood, mem_kept]
  constructor
  · rintro ⟨link, kept⟩
    exact ⟨⟨mem_names.2 (g.ends_registered _ (mem_dependencies.1 link)).2, kept⟩, link⟩
  · rintro ⟨⟨-, kept⟩, link⟩
    exact ⟨link, kept⟩

theorem mem_dependedOnBy_iff :
    user ∈ (g.neighbourhood excluded used).dependedOnBy ↔
      user ∈ g.kept excluded ∧ used ∈ g.dependencies user := by
  rw [mem_dependedOnBy_neighbourhood, mem_kept]
  constructor
  · rintro ⟨link, kept⟩
    exact ⟨⟨mem_names.2 (g.ends_registered _ (mem_dependencies.1 link)).1, kept⟩, link⟩
  · rintro ⟨⟨-, kept⟩, link⟩
    exact ⟨link, kept⟩

/-- Counts of the projection are lengths of lists; this makes them numbers of members. -/
theorem length_eq_card_of_mem_iff {xs : List String} (distinct : xs.Nodup) {s : Finset String}
    (members : ∀ n, n ∈ xs ↔ n ∈ s) : xs.length = s.card := by
  rw [← List.toFinset_card_of_nodup distinct]
  congr 1
  ext n
  rw [List.mem_toFinset, members]

/-- The dependencies between classes that are kept, counted by their users and by the classes
they lead to. -/
theorem sum_length_dependsOn_eq (g : Graph) (excluded : NameSet) :
    ((g.project excluded).entries.map fun e => e.2.dependsOn.length).sum
      = ((g.project excluded).entries.map fun e => e.2.dependedOnBy.length).sum := by
  have distinct := (g.kept excluded).nodup
  let classes := (g.kept excluded).toList.toFinset
  let uses (user used : String) : Prop := used ∈ g.dependencies user
  have mem_classes {n : String} : n ∈ classes ↔ n ∈ g.kept excluded := List.mem_toFinset
  have out (user : String) : (g.neighbourhood excluded user).dependsOn.length
      = (classes.bipartiteAbove uses user).card := by
    refine length_eq_card_of_mem_iff (NameSet.nodup _) fun used => mem_dependsOn_iff.trans ?_
    rw [Finset.mem_bipartiteAbove, mem_classes]
  have into (used : String) : (g.neighbourhood excluded used).dependedOnBy.length
      = (classes.bipartiteBelow uses used).card := by
    refine length_eq_card_of_mem_iff (NameSet.nodup _) fun user => mem_dependedOnBy_iff.trans ?_
    rw [Finset.mem_bipartiteBelow, mem_classes]
  simp only [entries_project, List.map_map, Function.comp_def, out, into]
  rw [← List.sum_toFinset _ distinct, ← List.sum_toFinset _ distinct]
  exact Finset.sum_card_bipartiteAbove_eq_sum_card_bipartiteBelow uses

/-- A projection lists the registered classes that are not excluded, in order. Each dependency
between them is listed with both its ends, and nothing else is; the lists of a class name listed
classes in order; and both kinds of lists hold the same number of names. -/
theorem project_mirrored (g : Graph) (excluded : NameSet) :
    let p := g.project excluded
    (p.names.Pairwise BytesBefore ∧
      ∀ n, n ∈ p.names ↔ g.contains n = true ∧ n ∉ excluded) ∧
    (∀ a ∈ p.names, ∀ b ∈ p.names, ∃ ofA ofB, p.find? a = some ofA ∧ p.find? b = some ofB ∧
      (b ∈ ofA.dependsOn ↔ (a, b) ∈ g.edges) ∧ (a ∈ ofB.dependedOnBy ↔ (a, b) ∈ g.edges)) ∧
    (∀ e ∈ p.entries, ∀ n, n ∈ e.2.dependsOn ∨ n ∈ e.2.dependedOnBy → n ∈ p.names) ∧
    (∀ e ∈ p.entries, e.2.dependsOn.Pairwise BytesBefore ∧
      e.2.dependedOnBy.Pairwise BytesBefore) ∧
    (p.entries.map fun e => e.2.dependsOn.length).sum
      = (p.entries.map fun e => e.2.dependedOnBy.length).sum := by
  intro p
  have names : p.names = (g.kept excluded).toList := g.names_project excluded
  have of_mem_entries {e : String × Neighbourhood} (he : e ∈ p.entries) :
      e.2 = g.neighbourhood excluded e.1 := by
    obtain ⟨n, -, rfl⟩ := List.mem_map.1 he
    rfl
  rw [bytesBefore_eq, names]
  refine ⟨⟨(g.kept excluded).sorted, fun n => ?_⟩, ?_, ?_, ?_, g.sum_length_dependsOn_eq excluded⟩
  · rw [← NameSet.mem_def, mem_kept, mem_names, contains_iff]
  · intro a ha b hb
    obtain ⟨registeredA, keptA⟩ := mem_kept.1 ha
    obtain ⟨registeredB, keptB⟩ := mem_kept.1 hb
    refine ⟨_, _, find?_project registeredA keptA, find?_project registeredB keptB, ?_, ?_⟩
    · simp [mem_dependsOn_neighbourhood, keptB, mem_edges]
    · simp [mem_dependedOnBy_neighbourhood, keptA, mem_edges]
  · intro e he n listed
    rw [of_mem_entries he, mem_dependsOn_iff, mem_dependedOnBy_iff] at listed
    rcases listed with ⟨kept, -⟩ | ⟨kept, -⟩ <;> exact kept
  · intro e he
    rw [of_mem_entries he]
    exact ⟨NameSet.sorted _, NameSet.sorted _⟩

end Graph

end ChangeImpact
