import ChangeImpact.Proofs.Graph.Selection

/-!
# Which chain justifies a test

A test may cover several affected classes. It is selected when the first of them is met in
the order of discovery, and the chain to that class is kept for it. As classes are
discovered in the order of their chains, no chain from a changed class to any class that
the test covers is shorter.

## Main definitions

* `TestMap.first?`, `Impact.earliest?`: the first of some classes that a test covers, and of
  the affected ones.
* `Justified`: what holds of a selection when some classes have been gone through.

## Main statements

* `Justified.selectFor`, `Graph.justified_selectTests`: going through one more class keeps
  this, so it holds of the whole selection.
* `SearchTree.noLater_of_find?_eq_some`: of some classes, the one found first has the first
  chain.
* `Graph.selectTests_justified`: which tests are selected, in which order and why.
-/

namespace ChangeImpact

/-! ## The first class that a test covers -/

namespace TestMap

def first? (tests : TestMap) (names : List String) (test : String) : Option String :=
  names.find? fun c => tests.find? c == some test

/-- Going through the classes, one that the first test covers is met before all that the second
one covers. -/
def MetBefore (tests : TestMap) (names : List String) (test test' : String) : Prop :=
  ∃ c d, tests.first? names test = some c ∧ tests.first? names test' = some d ∧
    names.idxOf c < names.idxOf d

variable {tests : TestMap} {names : List String} {test test' c name : String}

theorem of_first?_eq_some (h : tests.first? names test = some c) :
    c ∈ names ∧ tests.find? c = some test :=
  ⟨List.mem_of_find?_eq_some h, by simpa using List.find?_some h⟩

/-- A class that comes later is not met first. -/
theorem first?_append_of_eq_some (h : tests.first? names test = some c) (more : List String) :
    tests.first? (names ++ more) test = some c := by
  rw [first?] at h
  rw [first?, List.find?_append, h, Option.some_or]

theorem first?_concat_of_forall_ne (uncovered : ∀ c ∈ names, tests.find? c ≠ some test)
    (covers : tests.find? name = some test) :
    tests.first? (names ++ [name]) test = some name := by
  have before : names.find? (fun c => tests.find? c == some test) = none :=
    List.find?_eq_none.2 fun c hc => by simpa using uncovered c hc
  rw [first?, List.find?_append, before]
  simp [covers]

theorem MetBefore.append (h : tests.MetBefore names test test') (more : List String) :
    tests.MetBefore (names ++ more) test test' := by
  obtain ⟨c, d, first, first', lt⟩ := h
  refine ⟨c, d, first?_append_of_eq_some first _, first?_append_of_eq_some first' _, ?_⟩
  rwa [List.idxOf_append_of_mem (of_first?_eq_some first).1,
    List.idxOf_append_of_mem (of_first?_eq_some first').1]

end TestMap

/-- The affected class that was discovered first among those that a test covers. -/
def Impact.earliest? (i : Impact) (tests : TestMap) (test : String) : Option String :=
  tests.first? i.order test

/-! ## Going through the affected classes -/

/-- What holds when the classes in `seen` have been gone through: their tests are selected, each
with the chain to the first of them that it covers, and in the order of these classes. -/
structure Justified (i : Impact) (tests : TestMap) (seen : List String) (s : Selection) :
    Prop where
  complete : ∀ c ∈ seen, ∀ test, tests.find? c = some test → test ∈ s.ids
  chained : ∀ t ∈ s.tests, ∃ c, tests.first? seen t.test = some c ∧ i.pathTo? c = some t.path
  ordered : s.ids.Pairwise (tests.MetBefore seen)

namespace Justified

variable {i : Impact} {tests : TestMap} {seen : List String} {s : Selection} {name test : String}

theorem nil (i : Impact) (tests : TestMap) : Justified i tests [] .empty where
  complete := by simp
  chained := by simp [Selection.empty]
  ordered := .nil

/-- A class that has no test, or one that is selected already, changes nothing. -/
theorem pass (h : Justified i tests seen s)
    (known : ∀ test, tests.find? name = some test → test ∈ s.ids) :
    Justified i tests (seen ++ [name]) s where
  complete c hc test covers := by
    rcases List.mem_append.1 hc with old | new
    · exact h.complete c old test covers
    · exact known test (List.mem_singleton.1 new ▸ covers)
  chained t ht := by
    obtain ⟨c, first, path⟩ := h.chained t ht
    exact ⟨c, TestMap.first?_append_of_eq_some first _, path⟩
  ordered := h.ordered.imp fun before => before.append _

/-- A test that is new comes last, as no class before this one has it. -/
theorem select (h : Justified i tests seen s) (covers : tests.find? name = some test)
    {path : List String} (reached : i.pathTo? name = some path) (fresh : test ∉ s.ids) :
    Justified i tests (seen ++ [name]) (s.addIfAbsent test path) := by
  have uncovered : ∀ c ∈ seen, tests.find? c ≠ some test := fun c hc covers =>
    fresh (h.complete c hc test covers)
  have first := TestMap.first?_concat_of_forall_ne uncovered covers
  constructor
  case complete =>
    intro c hc test' covers'
    rw [Selection.ids_addIfAbsent fresh]
    rcases List.mem_append.1 hc with old | new
    · exact List.mem_append_left _ (h.complete c old test' covers')
    · obtain rfl := List.mem_singleton.1 new
      obtain rfl := Option.some.inj (covers.symm.trans covers')
      exact List.mem_append_right _ (List.mem_singleton_self test)
  case chained =>
    intro t ht
    rw [Selection.tests_addIfAbsent fresh] at ht
    rcases List.mem_append.1 ht with old | new
    · obtain ⟨c, first, path⟩ := h.chained t old
      exact ⟨c, TestMap.first?_append_of_eq_some first _, path⟩
    · obtain rfl := List.mem_singleton.1 new
      exact ⟨name, first, reached⟩
  case ordered =>
    rw [Selection.ids_addIfAbsent fresh]
    refine List.pairwise_append.2 ⟨h.ordered.imp fun before => before.append _,
      List.pairwise_singleton _ _, ?_⟩
    intro test' old new hnew
    obtain rfl := List.mem_singleton.1 hnew
    obtain ⟨t, ht, rfl⟩ := List.mem_map.1 old
    obtain ⟨c, first', -⟩ := h.chained t ht
    have hc := (TestMap.of_first?_eq_some first').1
    refine ⟨c, name, TestMap.first?_append_of_eq_some first' _, first, ?_⟩
    have unseen : name ∉ seen := fun hn => uncovered name hn covers
    rw [List.idxOf_append_of_mem hc, List.idxOf_append_of_notMem unseen]
    exact Nat.lt_add_right _ (List.idxOf_lt_length_of_mem hc)

/-- Going through one more class that has a chain. -/
theorem selectFor (h : Justified i tests seen s) {path : List String}
    (reached : i.pathTo? name = some path) :
    Justified i tests (seen ++ [name]) (i.selectFor tests s name) := by
  unfold Impact.selectFor
  rw [reached]
  cases covers : tests.find? name with
  | none => exact h.pass (by simp [covers])
  | some test =>
    change Justified i tests (seen ++ [name]) (s.addIfAbsent test path)
    by_cases present : test ∈ s.ids
    · rw [Selection.addIfAbsent_of_mem present]
      refine h.pass fun test' covers' => ?_
      obtain rfl := Option.some.inj (covers.symm.trans covers')
      exact present
    · exact h.select covers reached present

/-- By induction from the end of the list, as the fold takes its last class last. -/
theorem foldl_selectFor (names : List String) (reached : ∀ c ∈ names, (i.pathTo? c).isSome = true) :
    Justified i tests names (names.foldl (i.selectFor tests) .empty) := by
  induction names using List.reverseRecOn with
  | nil => exact .nil i tests
  | append_singleton names name ih =>
    have before := ih fun c hc => reached c (List.mem_append_left _ hc)
    obtain ⟨path, chain⟩ := Option.isSome_iff_exists.1 (reached name (by simp))
    rw [List.foldl_append]
    exact before.selectFor chain

end Justified

/-! ## Chains of classes that share a test -/

/-- Of the classes of some kind, the one found first has the first chain. -/
theorem SearchTree.noLater_of_find?_eq_some {g : Graph} {changed : NameSet} {trails : List Trail}
    (tree : SearchTree g changed trails) {p : String → Bool} {t u : Trail}
    (first : trails.find? (fun t => p t.name) = some t) (hu : u ∈ trails)
    (hp : p u.name = true) : NoLater t.names u.names := by
  obtain ⟨-, before, after, rfl, others⟩ := List.find?_eq_some_iff_append.1 first
  rcases List.mem_append.1 hu with earlier | later
  · have not := others u earlier
    simp [hp] at not
  · rcases List.mem_cons.1 later with rfl | later
    · exact .inl rfl
    · have sorted := (List.pairwise_append.1 tree.sorted).2.1
      exact .inr ((List.pairwise_cons.1 sorted).1 u later)

namespace Graph

variable {g : Graph} {changed : NameSet} {tests : TestMap}

theorem justified_selectTests (g : Graph) (changed : NameSet) (tests : TestMap) :
    Justified (g.propagate changed) tests (g.propagate changed).order
      ((g.propagate changed).selectTests tests) :=
  .foldl_selectFor _ fun _ hc => isSome_pathTo?_propagate.2 (Impact.contains_iff.2 hc)

/-- No chain to a class that the test covers is shorter than the one to the earliest of them. -/
theorem length_le_of_earliest? {test c x d : String} {path names : List String}
    (earliest : (g.propagate changed).earliest? tests test = some c)
    (chain : (g.propagate changed).pathTo? c = some path) (hx : x ∈ changed)
    (covers : tests.find? d = some test) (walk : Walk g.Affects x d names) :
    path.length ≤ names.length := by
  obtain ⟨trails, tree, found⟩ := g.exists_searchTree changed
  rw [Impact.earliest?, TestMap.first?, SearchTree.order_eq found, List.find?_map] at earliest
  obtain ⟨t, first, rfl⟩ := Option.map_eq_some_iff.1 earliest
  have ht := List.mem_of_find?_eq_some first
  obtain rfl := Option.some.inj ((tree.pathTo?_eq found ht).symm.trans chain)
  obtain ⟨u, hu, rfl, early⟩ := tree.reaches hx walk
  have noLater := tree.noLater_of_find?_eq_some (p := fun c => tests.find? c == some test) first hu
    (by simpa using covers)
  exact (noLater.trans early).length_le

/-- The tests of the affected classes are selected once each. The chain that justifies a test is
the one to the earliest class that it covers, in the order of discovery, and a shortest one from
a changed class to any class that it covers. The tests come in the order of these classes. -/
theorem selectTests_justified (g : Graph) (changed : List String) (tests : TestMap) :
    let impact := g.propagate (.ofList changed)
    let selection := impact.selectTests tests
    (∀ test, test ∈ selection.ids ↔ ∃ c, impact.contains c = true ∧ tests.find? c = some test) ∧
    selection.ids.Nodup ∧
    (∀ test ∈ selection.ids, ∃ c path, impact.earliest? tests test = some c ∧
      impact.pathTo? c = some path ∧ selection.pathFor? test = some path ∧
      (∃ x ∈ changed, Walk g.Affects x c path) ∧
      ∀ x ∈ changed, ∀ d names, tests.find? d = some test → Walk g.Affects x d names →
        path.length ≤ names.length) ∧
    selection.ids.Pairwise fun test test' => ∃ c d, impact.earliest? tests test = some c ∧
      impact.earliest? tests test' = some d ∧ impact.order.idxOf c < impact.order.idxOf d := by
  intro impact selection
  have justified : Justified impact tests impact.order selection :=
    g.justified_selectTests (.ofList changed) tests
  have distinct : selection.ids.Nodup := selection.nodup_ids
  refine ⟨fun test => ?_, distinct, ?_, justified.ordered⟩
  · rw [mem_ids_selectTests]
    simp only [Impact.contains_iff, impact, and_comm]
  · intro test selected
    obtain ⟨t, ht, rfl⟩ := List.mem_map.1 selected
    obtain ⟨c, earliest, chain⟩ := justified.chained t ht
    have kept : selection.pathFor? t.test = some t.path := by
      rw [Selection.pathFor?, (find?_name_eq_some_iff distinct).2 ⟨ht, rfl⟩, Option.map_some]
    refine ⟨c, t.path, earliest, chain, kept, ?_, ?_⟩
    · obtain ⟨x, hx, walk⟩ := walk_of_pathTo?_eq_some chain
      exact ⟨x, NameSet.mem_ofList.1 hx, walk⟩
    · intro x hx d names covers walk
      exact length_le_of_earliest? earliest chain (NameSet.mem_ofList.2 hx) covers walk

end Graph

end ChangeImpact
