import ChangeImpact.Graph.Selection
import ChangeImpact.Proofs.Graph.Impact

/-!
# Which tests are selected

Every affected class has a chain, so none is passed over, and the tests selected are
those of the affected classes. A test that covers several of them is selected once.
-/

namespace ChangeImpact

namespace Selection

variable {s : Selection} {test t : String} {path : List String}

theorem nodup_ids (s : Selection) : s.ids.Nodup := s.distinct

theorem addIfAbsent_of_mem (present : test ∈ s.ids) : s.addIfAbsent test path = s :=
  dif_pos present

/-- Tests join at the end, so a selection keeps the order in which the classes are gone through. -/
theorem tests_addIfAbsent (fresh : test ∉ s.ids) :
    (s.addIfAbsent test path).tests = s.tests ++ [⟨test, path⟩] := by
  rw [addIfAbsent, dif_neg fresh]

theorem ids_addIfAbsent (fresh : test ∉ s.ids) :
    (s.addIfAbsent test path).ids = s.ids ++ [test] := by
  rw [ids, tests_addIfAbsent fresh, List.map_append]
  rfl

theorem mem_ids_addIfAbsent : t ∈ (s.addIfAbsent test path).ids ↔ t ∈ s.ids ∨ t = test := by
  by_cases present : test ∈ s.ids
  · rw [addIfAbsent_of_mem present]
    constructor
    · exact .inl
    · rintro (old | rfl)
      · exact old
      · exact present
  · simp [ids_addIfAbsent present]

end Selection

namespace Impact

variable {i : Impact} {tests : TestMap} {s : Selection}

theorem mem_ids_selectFor {name t : String} :
    t ∈ (i.selectFor tests s name).ids ↔
      t ∈ s.ids ∨ tests.find? name = some t ∧ (i.pathTo? name).isSome = true := by
  unfold selectFor
  cases tests.find? name with
  | none => simp
  | some test =>
    cases i.pathTo? name with
    | none => simp
    | some path => simp [Selection.mem_ids_addIfAbsent, eq_comm]

/-- Going through some classes selects the tests of those that have a chain. -/
theorem mem_ids_foldl_selectFor (names : List String) {t : String} :
    t ∈ (names.foldl (i.selectFor tests) s).ids ↔
      t ∈ s.ids ∨ ∃ c ∈ names, tests.find? c = some t ∧ (i.pathTo? c).isSome = true := by
  induction names generalizing s with
  | nil => simp
  | cons name rest ih =>
    rw [List.foldl_cons, ih, mem_ids_selectFor]
    simp only [List.mem_cons, exists_eq_or_imp, or_assoc]

/-- A test that is new was selected for the class, with the chain to it. -/
theorem mem_tests_selectFor {name : String} {t : SelectedTest}
    (h : t ∈ (i.selectFor tests s name).tests) :
    t ∈ s.tests ∨ tests.find? name = some t.test ∧ i.pathTo? name = some t.path := by
  unfold selectFor at h
  split at h
  · rename_i test path covers reached
    by_cases present : test ∈ s.ids
    · rw [Selection.addIfAbsent_of_mem present] at h
      exact .inl h
    · rw [Selection.tests_addIfAbsent present] at h
      rcases List.mem_append.1 h with old | new
      · exact .inl old
      · rw [List.mem_singleton.1 new]
        exact .inr ⟨covers, reached⟩
  · exact .inl h

/-- For any selection to start from, so that the induction on the classes goes through. -/
theorem mem_tests_foldl_selectFor (names : List String) {t : SelectedTest}
    (h : t ∈ (names.foldl (i.selectFor tests) s).tests) :
    t ∈ s.tests ∨ ∃ c ∈ names, tests.find? c = some t.test ∧ i.pathTo? c = some t.path := by
  induction names generalizing s with
  | nil => exact .inl h
  | cons name rest ih =>
    rcases ih h with here | ⟨c, hc, selected⟩
    · rcases mem_tests_selectFor here with old | selected
      · exact .inl old
      · exact .inr ⟨name, by simp, selected⟩
    · exact .inr ⟨c, List.mem_cons_of_mem name hc, selected⟩

/-- Every selected test covers an affected class, and its chain is the one to that class. -/
theorem exists_of_mem_selectTests {t : SelectedTest} (h : t ∈ (i.selectTests tests).tests) :
    ∃ c ∈ i.order, tests.find? c = some t.test ∧ i.pathTo? c = some t.path := by
  rcases mem_tests_foldl_selectFor i.order h with none | selected
  · simp [Selection.empty] at none
  · exact selected

end Impact

/-- The selected tests are those of the affected classes. -/
theorem Graph.mem_ids_selectTests {g : Graph} {changed : NameSet} {tests : TestMap} {t : String} :
    t ∈ ((g.propagate changed).selectTests tests).ids ↔
      ∃ c, tests.find? c = some t ∧ c ∈ (g.propagate changed).order := by
  rw [Impact.selectTests, Impact.mem_ids_foldl_selectFor]
  simp only [isSome_pathTo?_propagate, Impact.contains_iff]
  constructor
  · rintro (none | ⟨c, hc, test, -⟩)
    · simp [Selection.ids, Selection.empty] at none
    · exact ⟨c, test, hc⟩
  · rintro ⟨c, test, hc⟩
    exact .inr ⟨c, hc, test, hc⟩

end ChangeImpact
