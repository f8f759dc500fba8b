import ChangeImpact.Proofs.Graph.CycleSearch
import ChangeImpact.Proofs.Graph.Selection

/-!
# Impact as a closure

What a change affects is the closure of the changed classes under "is used by", so it
grows with the changed classes and with the graph, it distributes over unions, and
taking it twice gives nothing new. The selected tests are those of the affected classes
and inherit all of this, although the order of discovery, the chains and the class that
justifies a test may be others in every run.

A cycle is found along dependencies and an impact spreads against them. Since a cycle
leads from each of its classes to each other one, a change of one of them is as good as
a change of any other.

## Main definitions

* `Graph.impacted`, `Graph.selected`: the affected classes and the selected tests as sets.

## Main statements

* `Graph.impacted_subset_iff`: an impact lies in another one as soon as its changed
  classes do.
* `Graph.impacted_eq_of_mem_cycle`: which class of a cycle has changed does not matter.
* `Graph.selected_union_mono`: selection distributes over unions and is monotone.
-/

namespace ChangeImpact

open Relation (ReflTransGen)

theorem Walk.exists_of_reflTransGen {r : String → String → Prop} {x y : String}
    (h : ReflTransGen r x y) : ∃ names, Walk r x y names := by
  induction h with
  | refl => exact ⟨[x], .single x⟩
  | tail _ link ih =>
    obtain ⟨names, walk⟩ := ih
    exact ⟨_, walk.snoc link⟩

theorem TestMap.find?_insert_of_ne {tests : TestMap} {c d : String} (other : d ≠ c)
    (test : String) : (tests.insert c test).find? d = tests.find? d := by
  have last : List.lookup d [(c, test)] = none := lookup_cons_of_ne other _
  rw [find?, insert, List.lookup_append, last, Option.or_none, find?]
  induction tests.entries with
  | nil => rfl
  | cons entry entries ih =>
    by_cases mapped : entry.1 = c
    · rw [List.filter_cons_of_neg (by simpa using mapped), ih, lookup_cons_of_ne (mapped ▸ other)]
    · rw [List.filter_cons_of_pos (by simpa using mapped), List.lookup_cons, List.lookup_cons, ih]

namespace Graph

def impacted (g : Graph) (changed : NameSet) : Set String :=
  { n | (g.propagate changed).contains n = true }

def selected (g : Graph) (tests : TestMap) (changed : NameSet) : Set String :=
  { t | t ∈ ((g.propagate changed).selectTests tests).ids }

variable {g h : Graph} {changed changed' excluded : NameSet} {tests : TestMap} {n t : String}

/-! ## The closure -/

/-- Stated by reachability, which composes; along which walk does not matter here. -/
theorem mem_impacted : n ∈ g.impacted changed ↔ ∃ x ∈ changed, ReflTransGen g.Affects x n := by
  rw [impacted, Set.mem_ofPred_eq, Impact.contains_iff, mem_order_propagate]
  constructor
  · rintro ⟨x, hx, names, walk⟩
    exact ⟨x, hx, walk.reflTransGen⟩
  · rintro ⟨x, hx, reach⟩
    exact ⟨x, hx, Walk.exists_of_reflTransGen reach⟩

theorem mem_impacted_of_mem (hn : n ∈ changed) : n ∈ g.impacted changed :=
  mem_impacted.2 ⟨n, hn, .refl⟩

theorem mem_impacted_of_reach {m : String} (hm : m ∈ g.impacted changed)
    (reach : ReflTransGen g.Affects m n) : n ∈ g.impacted changed := by
  obtain ⟨x, hx, toM⟩ := mem_impacted.1 hm
  exact mem_impacted.2 ⟨x, hx, toM.trans reach⟩

/-- An impact lies in another one as soon as its changed classes do. -/
theorem impacted_subset_iff :
    g.impacted changed ⊆ g.impacted changed' ↔ ∀ x ∈ changed, x ∈ g.impacted changed' := by
  constructor
  · intro subset x hx
    exact subset (mem_impacted_of_mem hx)
  · intro seeds n hn
    obtain ⟨x, hx, reach⟩ := mem_impacted.1 hn
    exact mem_impacted_of_reach (seeds x hx) reach

theorem impacted_append (a b : List String) :
    g.impacted (.ofList (a ++ b)) = g.impacted (.ofList a) ∪ g.impacted (.ofList b) := by
  ext n
  simp only [Set.mem_union, mem_impacted, NameSet.mem_ofList, List.mem_append]
  constructor
  · rintro ⟨x, hx | hx, reach⟩
    · exact .inl ⟨x, hx, reach⟩
    · exact .inr ⟨x, hx, reach⟩
  · rintro (⟨x, hx, reach⟩ | ⟨x, hx, reach⟩)
    · exact ⟨x, .inl hx, reach⟩
    · exact ⟨x, .inr hx, reach⟩

/-- Whatever an impact affects is part of it. -/
theorem impacted_order_propagate :
    g.impacted (.ofList (g.propagate changed).order) = g.impacted changed := by
  refine Set.Subset.antisymm (impacted_subset_iff.2 fun x hx => ?_)
    (impacted_subset_iff.2 fun x hx => ?_)
  · exact Impact.contains_iff.2 (NameSet.mem_ofList.1 hx)
  · refine mem_impacted_of_mem (NameSet.mem_ofList.2 (Impact.contains_iff.1 ?_))
    exact mem_impacted_of_mem hx

/-- With more dependencies a change affects no less. -/
theorem impacted_subset_of_links (links : g.links ⊆ h.links) :
    g.impacted changed ⊆ h.impacted changed := by
  intro n hn
  obtain ⟨x, hx, reach⟩ := mem_impacted.1 hn
  have more : g.Affects ≤ h.Affects :=
    fun used user uses => mem_dependencies.2 (links (mem_dependencies.1 uses))
  exact mem_impacted.2 ⟨x, hx, ReflTransGen.mono more x n reach⟩

/-! ## Tests of affected classes -/

theorem mem_selected : t ∈ g.selected tests changed ↔
    ∃ c ∈ g.impacted changed, tests.find? c = some t := by
  simp only [selected, impacted, Set.mem_ofPred_eq, mem_ids_selectTests, Impact.contains_iff,
    and_comm]

/-- A change makes its selection through the affected classes alone. -/
theorem selected_eq_of_impacted_eq (same : g.impacted changed = g.impacted changed') :
    g.selected tests changed = g.selected tests changed' := by
  ext t
  rw [mem_selected, mem_selected, same]

theorem selected_append (a b : List String) : g.selected tests (.ofList (a ++ b))
      = g.selected tests (.ofList a) ∪ g.selected tests (.ofList b) := by
  ext t
  simp only [Set.mem_union, mem_selected, impacted_append]
  constructor
  · rintro ⟨c, hc | hc, test⟩
    · exact .inl ⟨c, hc, test⟩
    · exact .inr ⟨c, hc, test⟩
  · rintro (⟨c, hc, test⟩ | ⟨c, hc, test⟩)
    · exact ⟨c, .inl hc, test⟩
    · exact ⟨c, .inr hc, test⟩

/-- With more dependencies and more tests no test is lost. -/
theorem selected_subset {tests' : TestMap} (links : g.links ⊆ h.links)
    (kept : ∀ c t, tests.find? c = some t → tests'.find? c = some t) :
    g.selected tests changed ⊆ h.selected tests' changed := by
  intro t ht
  obtain ⟨c, hc, test⟩ := mem_selected.1 ht
  exact mem_selected.2 ⟨c, impacted_subset_of_links links hc, kept c t test⟩

/-! ## More classes, dependencies and tests -/

/-- No call takes a dependency away. -/
theorem links_subset_edit (g : Graph) (e : Edit) : g.links ⊆ (g.edit e).links := by
  cases e with
  | register node =>
    rcases g.register_cases node with ⟨kept, -, rejected⟩ | ⟨-, g', ok, -, links⟩
    · rw [edit, rejected]
      exact List.Subset.refl _
    · rw [edit, ok, links]
      exact List.Subset.refl _
  | connect user used => exact fun link held => mem_links_connect.2 (.inl held)

theorem links_subset_foldl_edit (g : Graph) (edits : List Edit) :
    g.links ⊆ (edits.foldl edit g).links := by
  induction edits generalizing g with
  | nil => exact List.Subset.refl _
  | cons e edits ih => exact List.Subset.trans (g.links_subset_edit e) (ih _)

/-- The affected classes and the selected tests of two changes together are those of the one
and those of the other; an impact is its own impact; and whatever classes and dependencies are
added to the graph, or whatever class without a test gets one, no selected test is lost. -/
theorem selected_union_mono (g : Graph) (tests : TestMap) (a b : List String) :
    g.selected tests (.ofList (a ++ b))
      = g.selected tests (.ofList a) ∪ g.selected tests (.ofList b) ∧
    g.impacted (.ofList (a ++ b)) = g.impacted (.ofList a) ∪ g.impacted (.ofList b) ∧
    g.impacted (.ofList (g.propagate (.ofList a)).order) = g.impacted (.ofList a) ∧
    (∀ edits : List Edit,
      g.selected tests (.ofList a) ⊆ (edits.foldl edit g).selected tests (.ofList a)) ∧
    ∀ c test, tests.find? c = none →
      g.selected tests (.ofList a) ⊆ g.selected (tests.insert c test) (.ofList a) := by
  refine ⟨selected_append a b, impacted_append a b, impacted_order_propagate, fun edits => ?_,
    fun c test unmapped => ?_⟩
  · exact selected_subset (g.links_subset_foldl_edit edits) fun _ _ found => found
  · refine selected_subset (List.Subset.refl _) fun d t found => ?_
    have other : d ≠ c := by
      rintro rfl
      simp [unmapped] at found
    rw [TestMap.find?_insert_of_ne other, found]

/-- Two classes share a test, and a third one gets it as well. -/
theorem selected_union_mono_twoRoutes :
    let tests : TestMap := .ofList [("B", "RouteTest"), ("C", "RouteTest")]
    tests.find? "D" = none ∧
    twoRoutes.selected tests (.ofList (["B"] ++ ["C"]))
      = twoRoutes.selected tests (.ofList ["B"]) ∪ twoRoutes.selected tests (.ofList ["C"]) ∧
    twoRoutes.selected tests (.ofList ["B"])
      ⊆ ([.register { name := "E", locator := "" }, .connect "E" "D"].foldl edit twoRoutes).selected
        tests (.ofList ["B"]) ∧
    twoRoutes.selected tests (.ofList ["B"])
      ⊆ twoRoutes.selected (tests.insert "D" "RouteTest") (.ofList ["B"]) := by
  intro tests
  have unmapped : tests.find? "D" = none := by decide
  obtain ⟨union, -, -, edits, mapped⟩ := selected_union_mono twoRoutes tests ["B"] ["C"]
  exact ⟨unmapped, union, edits _, mapped "D" "RouteTest" unmapped⟩

/-! ## Cycles -/

/-- The classes of a closed walk affect each other: a change spreads against the
dependencies, and the walk leads around to where it came from. -/
theorem ClosedWalk.reach {names : List String} (walk : g.ClosedWalk excluded names)
    {a b : String} (ha : a ∈ names) (hb : b ∈ names) : ReflTransGen g.Affects a b := by
  have back : ReflTransGen (g.Uses excluded) b a := (walk.mem_component hb ha).1
  have follows : g.Uses excluded ≤ Function.swap g.Affects := fun user used uses => uses.1
  exact Relation.reflTransGen_swap.1 (ReflTransGen.mono follows b a back)

/-- A change of one class of a cycle affects all of them; and which of them is changed, beside
whatever else is, makes no difference to the affected classes and to the selected tests. -/
theorem impacted_eq_of_mem_cycle (g : Graph) (excluded : NameSet) (c : Cycle)
    (hc : c ∈ (g.findCycles excluded).cycles) :
    (∀ changed : NameSet, (∃ a ∈ c.names, a ∈ changed) →
      ∀ b ∈ c.names, (g.propagate changed).contains b = true) ∧
    ∀ a ∈ c.names, ∀ b ∈ c.names, ∀ changed : NameSet,
      g.impacted (changed.insert a) = g.impacted (changed.insert b) ∧
      ∀ tests, g.selected tests (changed.insert a) = g.selected tests (changed.insert b) := by
  have walk := (elementary_of_mem_cycles hc).toClosedWalk
  have exchange : ∀ a ∈ c.names, ∀ b ∈ c.names, ∀ changed : NameSet,
      g.impacted (changed.insert a) ⊆ g.impacted (changed.insert b) := by
    intro a ha b hb changed
    refine impacted_subset_iff.2 fun x hx => ?_
    rcases NameSet.mem_insert.1 hx with rfl | hx
    · exact mem_impacted_of_reach (mem_impacted_of_mem (by simp)) (walk.reach hb ha)
    · exact mem_impacted_of_mem (NameSet.mem_insert.2 (.inr hx))
  constructor
  · rintro changed ⟨a, ha, changedA⟩ b hb
    exact mem_impacted_of_reach (mem_impacted_of_mem changedA) (walk.reach ha hb)
  · intro a ha b hb changed
    have same : g.impacted (changed.insert a) = g.impacted (changed.insert b) :=
      Set.Subset.antisymm (exchange a ha b hb changed) (exchange b hb a ha changed)
    exact ⟨same, fun tests => selected_eq_of_impacted_eq same⟩

theorem impacted_eq_of_mem_cycle_twoRoutes :
    ⟨["A", "B", "D", "A"]⟩ ∈ (twoRoutes.findCycles ∅).cycles ∧
    (twoRoutes.propagate (.ofList ["D"])).contains "B" = true ∧
    twoRoutes.impacted ((NameSet.ofList ["E"]).insert "D")
      = twoRoutes.impacted ((NameSet.ofList ["E"]).insert "B") := by
  have hc : ⟨["A", "B", "D", "A"]⟩ ∈ (twoRoutes.findCycles ∅).cycles := by
    simp [findCycles_twoRoutes]
  obtain ⟨all, exchange⟩ := impacted_eq_of_mem_cycle twoRoutes ∅ _ hc
  refine ⟨hc, all (.ofList ["D"]) ⟨"D", by simp, by simp⟩ "B" (by simp), ?_⟩
  exact (exchange "D" (by simp) "B" (by simp) (.ofList ["E"])).1

end Graph

end ChangeImpact
