import ChangeImpact.Proofs.Graph.SearchTree
import ChangeImpact.Proofs.Lookup
import ChangeImpact.Proofs.NameOrder

/-!
# The impact of a change

What is affected by a change is what a walk along the dependencies reaches from a
changed class. The chain that is shown for an affected class is such a walk: of all
of them it is a shortest one, and of those the least.

## Main statements

* `Graph.mem_order_propagate`: the affected classes.
* `Graph.contains_propagate_exact`: the affected classes are found once each.
* `Graph.pathTo?_propagate_valid`: the chain to an affected class.
* `Graph.pathTo?_propagate_least`: no chain is shorter, and none of the same length
  comes before it.
-/

namespace ChangeImpact

theorem Impact.contains_iff {i : Impact} {n : String} : i.contains n = true ↔ n ∈ i.order := by
  simp [contains, origin?, order]

namespace SearchTree

variable {g : Graph} {changed : NameSet} {trails : List Trail} {i : Impact} {t : Trail}

theorem order_eq (found : i.findings = trails.map Trail.finding) :
    i.order = trails.map Trail.name := by
  simp [Impact.order, found, Function.comp_def]

/-- No class has two trails, so the first finding of its name is that of its trail. -/
theorem origin?_eq (tree : SearchTree g changed trails)
    (found : i.findings = trails.map Trail.finding) (ht : t ∈ trails) :
    i.origin? t.name = some t.finding.origin := by
  have first : trails.find? (·.name == t.name) = some t :=
    (find?_name_eq_some_iff tree.distinct).2 ⟨ht, rfl⟩
  simp [Impact.origin?, found, List.find?_map, Function.comp_def, first]

/-- With a step for every class on a trail, following the origins gives the trail. -/
theorem trace_eq (tree : SearchTree g changed trails)
    (found : i.findings = trails.map Trail.finding) (ht : t ∈ trails) {steps : Nat}
    (enough : t.names.length ≤ steps) (walked : List String) :
    i.trace steps t.name walked = some (t.names ++ walked) := by
  refine tree.induction (motive := fun t => ∀ steps, t.names.length ≤ steps → ∀ walked,
    i.trace steps t.name walked = some (t.names ++ walked)) ?_ ?_ ht steps enough walked
  · intro x hx steps enough walked
    obtain ⟨k, rfl⟩ : ∃ k, steps = k + 1 := Nat.exists_eq_add_one.2 enough
    have origin := tree.origin?_eq found (tree.seeded x hx)
    simp only [Trail.name_seed, Trail.finding_seed] at origin
    simp [Impact.trace, origin]
  · intro p hp d hd mem ih steps enough walked
    rw [Trail.names_extend, List.length_append, List.length_singleton] at enough
    obtain ⟨k, rfl⟩ : ∃ k, steps = k + 1 := Nat.exists_eq_add_one.2 (by omega)
    have origin := tree.origin?_eq found mem
    simp only [Trail.name_extend, Trail.finding_extend] at origin
    simp [Impact.trace, origin, ih k (by omega)]

/-- The origins lead back along the trail, and a trail is no longer than the findings are many, so
the bound on the steps does not cut it short. -/
theorem pathTo?_eq (tree : SearchTree g changed trails)
    (found : i.findings = trails.map Trail.finding) (ht : t ∈ trails) :
    i.pathTo? t.name = some t.names := by
  have enough : t.names.length ≤ i.findings.length := by
    rw [found, List.length_map]
    exact tree.length_names_le ht
  rw [Impact.pathTo?, tree.trace_eq found ht enough, List.append_nil]

end SearchTree

theorem Impact.contains_of_pathTo?_eq_some {i : Impact} {n : String} {path : List String}
    (h : i.pathTo? n = some path) : i.contains n = true := by
  rw [pathTo?] at h
  cases steps : i.findings.length with
  | zero => simp [steps, trace] at h
  | succ k =>
    cases origin : i.origin? n with
    | none => simp [steps, trace, origin] at h
    | some _ => simp [contains, origin]

namespace Graph

/-! ## The affected classes -/

theorem mem_order_propagate {g : Graph} {changed : NameSet} {n : String} :
    n ∈ (g.propagate changed).order ↔ ∃ x ∈ changed, ∃ names, Walk g.Affects x n names := by
  obtain ⟨trails, tree, found⟩ := g.exists_searchTree changed
  rw [SearchTree.order_eq found, tree.mem_names_iff]

theorem nodup_order_propagate (g : Graph) (changed : NameSet) :
    (g.propagate changed).order.Nodup := by
  obtain ⟨trails, tree, found⟩ := g.exists_searchTree changed
  rw [SearchTree.order_eq found]
  exact tree.distinct

/-- The affected classes are the changed ones and those at the end of a walk from a changed
class, and the order of discovery lists each of them once. -/
theorem contains_propagate_exact (g : Graph) (changed : List String) :
    let impact := g.propagate (.ofList changed)
    (∀ n, impact.contains n = true ↔
      n ∈ changed ∨ ∃ x ∈ changed, ∃ names, Walk g.Affects x n names) ∧
    impact.order.Nodup ∧
    ∀ n, (n ∈ impact.order ↔ impact.contains n = true) ∧
      ((impact.origin? n).isSome = true ↔ impact.contains n = true) := by
  intro impact
  refine ⟨fun n => ?_, g.nodup_order_propagate _, fun n => ⟨Impact.contains_iff.symm, Iff.rfl⟩⟩
  rw [Impact.contains_iff, mem_order_propagate]
  simp only [NameSet.mem_ofList]
  constructor
  · exact .inr
  · rintro (hn | walk)
    · exact ⟨n, hn, [n], .single n⟩
    · exact walk

/-! ## The chain to an affected class -/

/-- An affected class has a trail that is shown as its chain. -/
theorem exists_trail_of_contains {g : Graph} {changed : NameSet} {trails : List Trail}
    (tree : SearchTree g changed trails)
    (found : (g.propagate changed).findings = trails.map Trail.finding) {n : String}
    (hn : (g.propagate changed).contains n = true) :
    ∃ t ∈ trails, t.name = n ∧ (g.propagate changed).pathTo? n = some t.names := by
  rw [Impact.contains_iff, SearchTree.order_eq found] at hn
  obtain ⟨t, ht, rfl⟩ := List.mem_map.1 hn
  exact ⟨t, ht, rfl, tree.pathTo?_eq found ht⟩

theorem isSome_pathTo?_propagate {g : Graph} {changed : NameSet} {n : String} :
    ((g.propagate changed).pathTo? n).isSome = true ↔ (g.propagate changed).contains n = true := by
  constructor
  · intro some
    obtain ⟨path, h⟩ := Option.isSome_iff_exists.1 some
    exact Impact.contains_of_pathTo?_eq_some h
  · intro hn
    obtain ⟨trails, tree, found⟩ := g.exists_searchTree changed
    obtain ⟨t, -, -, path⟩ := exists_trail_of_contains tree found hn
    rw [path]
    rfl

/-- The chain that is shown for a class is a walk to it from a changed class. -/
theorem walk_of_pathTo?_eq_some {g : Graph} {changed : NameSet} {n : String} {path : List String}
    (h : (g.propagate changed).pathTo? n = some path) :
    ∃ x ∈ changed, Walk g.Affects x n path := by
  obtain ⟨trails, tree, found⟩ := g.exists_searchTree changed
  obtain ⟨t, ht, rfl, eq⟩ :=
    exists_trail_of_contains tree found (Impact.contains_of_pathTo?_eq_some h)
  obtain rfl : t.names = path := Option.some.inj (eq.symm.trans h)
  exact tree.walk ht

/-- There is a chain for the affected classes and for no others. It leads from a changed class
to the affected one along dependencies, repeats no class and passes no other changed class. -/
theorem pathTo?_propagate_valid (g : Graph) (changed : List String) (n : String) :
    let impact := g.propagate (.ofList changed)
    ((impact.pathTo? n).isSome = true ↔ impact.contains n = true) ∧
    ∀ path, impact.pathTo? n = some path →
      (∃ x ∈ changed, Walk g.Affects x n path) ∧ path.Nodup ∧ ∀ y ∈ path.tail, y ∉ changed := by
  intro impact
  refine ⟨isSome_pathTo?_propagate, fun path h => ?_⟩
  obtain ⟨trails, tree, found⟩ := g.exists_searchTree (.ofList changed)
  obtain ⟨t, ht, rfl, eq⟩ :=
    exists_trail_of_contains tree found (Impact.contains_of_pathTo?_eq_some h)
  obtain rfl : t.names = path := Option.some.inj (eq.symm.trans h)
  obtain ⟨x, hx, walk⟩ := tree.walk ht
  refine ⟨⟨x, NameSet.mem_ofList.1 hx, walk⟩, tree.nodup_names ht, fun y hy => ?_⟩
  rw [← NameSet.mem_ofList]
  exact tree.not_mem_changed_of_mem_tail ht hy

/-- The chain to an affected class is a shortest one from a changed class, and of the shortest
ones the least; and classes are discovered in the order of their chains. -/
theorem pathTo?_propagate_least (g : Graph) (changed : List String) :
    let impact := g.propagate (.ofList changed)
    (∀ n, impact.contains n = true → ∃ path, impact.pathTo? n = some path ∧
      (∃ x ∈ changed, Walk g.Affects x n path) ∧
      ∀ x ∈ changed, ∀ names, Walk g.Affects x n names →
        path.length ≤ names.length ∧
        (path.length = names.length → path = names ∨ List.Lex BytesBefore path names)) ∧
    impact.order.Pairwise fun a b => ∃ p q, impact.pathTo? a = some p ∧
      impact.pathTo? b = some q ∧ List.Shortlex BytesBefore p q := by
  intro impact
  rw [bytesBefore_eq]
  obtain ⟨trails, tree, found⟩ := g.exists_searchTree (.ofList changed)
  constructor
  · intro n hn
    obtain ⟨t, ht, rfl, eq⟩ := exists_trail_of_contains tree found hn
    obtain ⟨x, hx, walk⟩ := tree.walk ht
    refine ⟨t.names, eq, ⟨x, NameSet.mem_ofList.1 hx, walk⟩, fun y hy names other => ?_⟩
    have early := tree.noLater ht (NameSet.mem_ofList.2 hy) other
    exact ⟨early.length_le, early.eq_or_lex⟩
  · rw [SearchTree.order_eq found, List.pairwise_map]
    refine tree.sorted.imp_of_mem fun ha hb lt => ?_
    exact ⟨_, _, tree.pathTo?_eq found ha, tree.pathTo?_eq found hb, lt⟩

end Graph

end ChangeImpact
