import Mathlib.Data.List.Nodup

/-!
# Looking up by name

What is found in a list under a name is the first entry of that name. Where no two entries
share a name, it is the entry of that name.
-/

namespace ChangeImpact

/-- Where names are distinct, it does not matter in which order a list is searched. -/
theorem find?_name_eq_some_iff {α : Type} {name : α → String} {xs : List α}
    (distinct : (xs.map name).Nodup) {x : α} {n : String} :
    xs.find? (fun y => name y == n) = some x ↔ x ∈ xs ∧ name x = n := by
  constructor
  · intro found
    exact ⟨List.mem_of_find?_eq_some found, by simpa using List.find?_some found⟩
  · rintro ⟨hx, rfl⟩
    cases found : xs.find? (fun y => name y == name x) with
    | none => exact absurd (List.find?_eq_none.1 found x hx) (by simp)
    | some y =>
      have same : name y = name x := by simpa using List.find?_some found
      rw [List.inj_on_of_nodup_map distinct (List.mem_of_find?_eq_some found) hx same]

theorem lookup_eq_some_iff_mem {α β : Type} [BEq α] [LawfulBEq α] {entries : List (α × β)}
    (distinct : (entries.map Prod.fst).Nodup) {name : α} {value : β} :
    entries.lookup name = some value ↔ (name, value) ∈ entries := by
  rw [List.lookup_eq_some_iff]
  constructor
  · rintro ⟨before, after, split, -⟩
    simp [split]
  · intro mem
    obtain ⟨before, after, split⟩ := List.append_of_mem mem
    refine ⟨before, after, split, fun entry earlier => ?_⟩
    rw [split, List.map_append, List.nodup_append] at distinct
    have other := distinct.2.2 entry.1 (List.mem_map_of_mem earlier) name (by simp)
    simpa using other.symm

theorem lookup_cons_of_ne {c : String} {pair : String × String} (h : c ≠ pair.1)
    (rest : List (String × String)) : (pair :: rest).lookup c = rest.lookup c := by
  rw [List.lookup_cons, beq_false_of_ne h]

end ChangeImpact
