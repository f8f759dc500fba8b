import ChangeImpact.Graph.Analysis
import ChangeImpact.Graph.Projection
import ChangeImpact.Proofs.Graph.Store
import Mathlib.Data.List.Sort

/-!
# What a graph shows of its history

A graph holds its classes and dependencies in the order in which they came. None of the
questions asked of it shows that order: the views list names in increasing order, and
both searches go by these views alone. So two graphs with the same names and the same
dependencies give the same answers, however they were built and whatever else is known
of their classes.

## Main definitions

* `Graph.SameShape`: two graphs have the same names and the same dependencies.

## Main statements

* `Graph.SameShape.findCycles_eq`, `Graph.SameShape.propagate_eq`: the two searches of
  graphs of the same shape agree.
* `Graph.views_ofEdits_eq`: all answers agree.
-/

namespace ChangeImpact

/-- A set is given by its members. -/
theorem NameSet.ext {s t : NameSet} (h : ∀ n, n ∈ s ↔ n ∈ t) : s = t := by
  have antisymm : Std.Antisymm (α := String) (· < ·) :=
    ⟨fun _ _ lt gt => absurd gt (String.lt_asymm lt)⟩
  have irrefl : Std.Irrefl (α := String) (· < ·) := ⟨String.lt_irrefl⟩
  obtain ⟨xs, sorted⟩ := s
  obtain ⟨ys, sorted'⟩ := t
  obtain rfl : xs = ys := sorted.eq_of_mem_iff sorted' h
  rfl

namespace Search

variable {g : Graph} {excluded : NameSet} {s t : Search}

theorem run_of_step_eq_none (stop : s.step g excluded = none) : s.run g excluded = s := by
  rw [run]
  split
  · rfl
  · rename_i next
    cases stop.symm.trans next

theorem run_of_step_eq_some (next : s.step g excluded = some t) :
    s.run g excluded = t.run g excluded := by
  rw [run]
  split
  · rename_i stop
    cases stop.symm.trans next
  · rename_i next'
    obtain rfl := Option.some.inj (next'.symm.trans next)
    rfl

end Search

namespace Graph

/-- The same names are registered and the same dependencies held, in whatever order. -/
structure SameShape (g h : Graph) : Prop where
  contains_eq : ∀ n, g.contains n = h.contains n
  mem_links_iff : ∀ e, e ∈ g.links ↔ e ∈ h.links

namespace SameShape

variable {g h : Graph}

/-! ## Views -/

/-- A set of names is listed in one order, so having the same members makes it the same set. The
other answers follow the same way. -/
theorem names_eq (same : g.SameShape h) : g.names = h.names := by
  refine NameSet.ext fun n => ?_
  rw [mem_names, mem_names, ← contains_iff, ← contains_iff, same.contains_eq]

theorem dependencies_eq (same : g.SameShape h) (n : String) :
    g.dependencies n = h.dependencies n := by
  refine NameSet.ext fun m => ?_
  rw [mem_dependencies, mem_dependencies, same.mem_links_iff]

theorem dependents_eq (same : g.SameShape h) (n : String) : g.dependents n = h.dependents n := by
  refine NameSet.ext fun m => ?_
  rw [mem_dependents, mem_dependents, same.mem_links_iff]

theorem edges_eq (same : g.SameShape h) : g.edges = h.edges := by
  simp only [edges, same.names_eq, same.dependencies_eq]

theorem project_eq (same : g.SameShape h) (excluded : NameSet) :
    g.project excluded = h.project excluded := by
  simp only [project, same.names_eq, same.dependencies_eq, same.dependents_eq]

/-! ## The search for cycles -/

theorem enter_eq (same : g.SameShape h) (s : Search) (name : String) :
    s.enter g name = s.enter h name := by
  simp only [Search.enter, same.dependencies_eq]

/-- A step asks the graph for nothing but the dependencies of a class. -/
theorem step_eq (same : g.SameShape h) (excluded : NameSet) (s : Search) :
    s.step g excluded = s.step h excluded := by
  simp only [Search.step, Search.examine, same.enter_eq]

theorem run_eq (same : g.SameShape h) (excluded : NameSet) (s : Search) :
    s.run g excluded = s.run h excluded := by
  fun_induction Search.run g excluded s with
  | case1 s stop =>
    rw [same.step_eq] at stop
    exact (Search.run_of_step_eq_none stop).symm
  | case2 s t next ih =>
    rw [same.step_eq] at next
    exact ih.trans (Search.run_of_step_eq_some next).symm

theorem visit_eq (same : g.SameShape h) (excluded : NameSet) :
    Search.visit g excluded = Search.visit h excluded := by
  funext s name
  simp only [Search.visit, same.enter_eq, same.run_eq]

/-- Neither the order of registration nor what else is known of a class is seen by the search. -/
theorem findCycles_eq (same : g.SameShape h) (excluded : NameSet) :
    g.findCycles excluded = h.findCycles excluded := by
  rw [findCycles, findCycles, Search.start, Search.start, same.names_eq, same.visit_eq]

/-! ## The impact of a change -/

theorem newDependents_eq (same : g.SameShape h) (found : List Finding) (name : String) :
    g.newDependents found name = h.newDependents found name := by
  rw [newDependents, newDependents, same.dependents_eq]

/-- By the recursion of the search, with the same findings and the same queue in both graphs. -/
theorem spread_eq (same : g.SameShape h) (found queue : List Finding) :
    g.spread found queue = h.spread found queue := by
  fun_induction Graph.spread g found queue with
  | case1 found => rw [spread]
  | case2 found f queue more ih =>
    rw [ih, spread.eq_def h found (f :: queue)]
    simp only [more, same.newDependents_eq]

theorem propagate_eq (same : g.SameShape h) (changed : NameSet) :
    g.propagate changed = h.propagate changed := by
  rw [propagate, propagate, same.spread_eq]

end SameShape

/-- However two graphs were built, with the same names and the same dependencies they show the
same views, cycles, impacts, selections and projections. -/
theorem views_ofEdits_eq (edits edits' : List Edit)
    (names : ∀ n, (ofEdits edits).contains n = (ofEdits edits').contains n)
    (links : ∀ e, e ∈ (ofEdits edits).links ↔ e ∈ (ofEdits edits').links) :
    let g := ofEdits edits
    let h := ofEdits edits'
    g.names = h.names ∧ g.edges = h.edges ∧
    (∀ n, g.dependencies n = h.dependencies n ∧ g.dependents n = h.dependents n) ∧
    (∀ excluded, g.findCycles excluded = h.findCycles excluded) ∧
    (∀ changed, g.propagate changed = h.propagate changed ∧
      (∀ n, (g.propagate changed).pathTo? n = (h.propagate changed).pathTo? n) ∧
      ∀ tests, (g.propagate changed).selectTests tests = (h.propagate changed).selectTests tests) ∧
    ∀ excluded, g.project excluded = h.project excluded := by
  intro g h
  have same : g.SameShape h := ⟨names, links⟩
  refine ⟨same.names_eq, same.edges_eq, ?_, same.findCycles_eq, ?_, same.project_eq⟩
  · exact fun n => ⟨same.dependencies_eq n, same.dependents_eq n⟩
  · intro changed
    rw [same.propagate_eq changed]
    exact ⟨rfl, fun _ => rfl, fun _ => rfl⟩

/-- Two classes that use each other. -/
def mutualUse : List Edit :=
  [.register { name := "A", locator := "A.java" }, .register { name := "B", locator := "B.java" },
   .connect "A" "B", .connect "B" "A"]

/-- The same two classes, with more known of them, and calls that change nothing in between. -/
def mutualUseAgain : List Edit :=
  [.register { name := "B", locator := "b/B.java", packageName := "b", entity := true },
   .connect "B" "A", .register { name := "A", locator := "A.java", configuration := true },
   .register { name := "B", locator := "B.java" }, .connect "B" "A", .connect "A" "C",
   .connect "A" "B", .connect "B" "A"]

theorem views_mutualUse_eq :
    (∀ n, (ofEdits mutualUse).contains n = (ofEdits mutualUseAgain).contains n) ∧
    (∀ e, e ∈ (ofEdits mutualUse).links ↔ e ∈ (ofEdits mutualUseAgain).links) ∧
    (ofEdits mutualUse).names = (ofEdits mutualUseAgain).names ∧
    (ofEdits mutualUse).findCycles ∅ = (ofEdits mutualUseAgain).findCycles ∅ := by
  have names : ∀ n, (ofEdits mutualUse).contains n = (ofEdits mutualUseAgain).contains n := by
    intro n
    rw [Bool.eq_iff_iff, contains_iff, contains_iff]
    have there : (ofEdits mutualUse).nodes.map ClassNode.name
        ⊆ (ofEdits mutualUseAgain).nodes.map ClassNode.name := by decide
    have back : (ofEdits mutualUseAgain).nodes.map ClassNode.name
        ⊆ (ofEdits mutualUse).nodes.map ClassNode.name := by decide
    exact ⟨fun hn => there hn, fun hn => back hn⟩
  have links : ∀ e, e ∈ (ofEdits mutualUse).links ↔ e ∈ (ofEdits mutualUseAgain).links := by
    intro e
    have there : (ofEdits mutualUse).links ⊆ (ofEdits mutualUseAgain).links := by decide
    have back : (ofEdits mutualUseAgain).links ⊆ (ofEdits mutualUse).links := by decide
    exact ⟨fun he => there he, fun he => back he⟩
  have views := views_ofEdits_eq mutualUse mutualUseAgain names links
  exact ⟨names, links, views.1, views.2.2.2.1 ∅⟩

end Graph

end ChangeImpact
