import ChangeImpact.Proofs.Graph.CycleSearch

/-!
# Excluding one more class

No cycle is reported through an excluded class. The other cycles are not left alone,
though: where cycles share a dependency only one of them may be reported, and which one
depends on the order of the search, which the excluded class can change. What stays is
that each of them follows the closing dependency of a reported cycle. For a cycle that
shares no dependency with another one, that reported cycle is the cycle itself.

## Main definitions

* `Graph.Apart`: a cycle shares no dependency with another one.
* `canonicalForms`: the cycles of a report, wherever they are entered.

## Main statements

* `Graph.canonicalForms_twoRoutes_ne`: excluding a class can bring up a cycle that was not
  reported before.
* `Graph.findCycles_insert`: what excluding a class does to the reported cycles.
-/

namespace ChangeImpact

/-- The cycles of a list, each entered at its least name. -/
def canonicalForms (cycles : List Cycle) : Set Cycle := { k | ∃ c ∈ cycles, c.canonical = k }

namespace Graph

/-- Every elementary cycle that follows a dependency of `c` is `c`, entered anywhere. -/
def Apart (g : Graph) (excluded : NameSet) (c : Cycle) : Prop :=
  ∀ d, g.Elementary excluded d → ∀ user used, [user, used] <:+: c.names →
    [user, used] <:+: d.names → d.canonical = c.canonical

variable {g : Graph} {excluded : NameSet} {v : String} {c d : Cycle}

/-- To exclude one more class is to leave out the cycles through it, and no others. -/
theorem elementary_insert_iff :
    g.Elementary (excluded.insert v) c ↔ g.Elementary excluded c ∧ v ∉ c.names := by
  constructor
  · rintro ⟨⟨proper, closed, kept, linked⟩, distinct⟩
    have around : v ∉ c.names := fun hv => kept v hv (NameSet.mem_insert.2 (.inl rfl))
    refine ⟨⟨⟨proper, closed, fun n hn skipped => kept n hn ?_, linked⟩, distinct⟩, around⟩
    exact NameSet.mem_insert.2 (.inr skipped)
  · rintro ⟨⟨⟨proper, closed, kept, linked⟩, distinct⟩, around⟩
    refine ⟨⟨proper, closed, fun n hn skipped => ?_, linked⟩, distinct⟩
    rcases NameSet.mem_insert.1 skipped with rfl | skipped
    · exact around hn
    · exact kept n hn skipped

/-- What is reported with `v` excluded is an elementary cycle around `v`. -/
theorem elementary_of_mem_cycles_insert (hc : c ∈ (g.findCycles (excluded.insert v)).cycles) :
    g.Elementary excluded c ∧ v ∉ c.names :=
  elementary_insert_iff.1 (elementary_of_mem_cycles hc)

namespace Apart

/-- What closes on a dependency of `c` follows it, and only `c` does. -/
theorem canonical_eq (apart : g.Apart excluded c) (hd : d ∈ (g.findCycles excluded).cycles)
    (on : d.ClosesOn c.names) : d.canonical = c.canonical := by
  obtain ⟨user, used, ⟨front, closes⟩, followed⟩ := on
  exact apart d (elementary_of_mem_cycles hd) user used followed ⟨front, [], by simp [closes]⟩

theorem insert (apart : g.Apart excluded c) : g.Apart (excluded.insert v) c :=
  fun d elementary => apart d (elementary_insert_iff.1 elementary).1

end Apart

/-- A cycle with the canonical form of one around `v` goes around `v` too. -/
theorem not_mem_of_canonical_eq (hd : g.Elementary excluded d) (hc : g.Elementary excluded c)
    (same : d.canonical = c.canonical) (around : v ∉ c.names) : v ∉ d.names := by
  rw [← hc.mem_canonical_iff, ← same] at around
  exact fun through => around (hd.mem_canonical_iff.2 through)

/-! ## Cycles that share a dependency -/

/-- The search enters `D` by way of `B` and reports that cycle alone. Without `B` it comes by way
of `C`. -/
theorem canonicalForms_twoRoutes_ne :
    canonicalForms (twoRoutes.findCycles (NameSet.insert ∅ "B")).cycles
      ≠ canonicalForms ((twoRoutes.findCycles ∅).cycles.filter fun c => "B" ∉ c.names) := by
  have around : ((twoRoutes.findCycles ∅).cycles.filter fun c => "B" ∉ c.names) = [] := by
    simp [findCycles_twoRoutes]
  intro same
  have new : Cycle.canonical ⟨["A", "C", "D", "A"]⟩
      ∈ canonicalForms (twoRoutes.findCycles (NameSet.insert ∅ "B")).cycles :=
    ⟨_, by simp [findCycles_twoRoutes_insert], rfl⟩
  rw [same, around] at new
  obtain ⟨c, hc, -⟩ := new
  simp at hc

-- The other way round: by way of `B` the search comes to the ring at `E` and reports two cycles,
-- without `B` it comes to it at `C` and reports one of them.
example :
    let g := ofNames ["A", "B", "C", "D", "E"]
      [("A", "B"), ("B", "E"), ("C", "D"), ("C", "E"), ("D", "E"), ("E", "C")]
    (g.findCyclesWithin ∅ 12).map (·.cycles.map Cycle.canonical)
      = some [⟨["C", "D", "E", "C"]⟩, ⟨["C", "E", "C"]⟩] ∧
    (g.findCyclesWithin (NameSet.insert ∅ "B") 12).map (·.cycles.map Cycle.canonical)
      = some [⟨["C", "D", "E", "C"]⟩] := by
  decide

/-! ## The reports before and after -/

/-- Excluding a class removes the cycles through it. A cycle around it that is reported before or
after follows the closing dependency of a cycle that is reported at the other time; and that is the
same cycle, unless it shares a dependency with another one. -/
theorem findCycles_insert (g : Graph) (excluded : NameSet) (v : String) :
    let before := (g.findCycles excluded).cycles
    let around := before.filter fun c => v ∉ c.names
    let after := (g.findCycles (excluded.insert v)).cycles
    (∀ c ∈ after, v ∉ c.names) ∧
    (∀ c ∈ around, ∃ d ∈ after, d.ClosesOn c.names ∧
      (g.Apart (excluded.insert v) c → d.canonical = c.canonical)) ∧
    (∀ c ∈ after, ∃ d ∈ before, d.ClosesOn c.names ∧
      (g.Apart excluded c → d ∈ around ∧ d.canonical = c.canonical)) ∧
    ((∀ c, g.Elementary excluded c → g.Apart excluded c) →
      canonicalForms after = canonicalForms around) := by
  intro before around after
  have mem_around {c : Cycle} : c ∈ around ↔ c ∈ before ∧ v ∉ c.names := by simp [around]
  have later : ∀ c ∈ around, ∃ d ∈ after, d.ClosesOn c.names ∧
      (g.Apart (excluded.insert v) c → d.canonical = c.canonical) := by
    intro c hc
    obtain ⟨found, avoids⟩ := mem_around.1 hc
    have kept := elementary_insert_iff.2 ⟨elementary_of_mem_cycles found, avoids⟩
    obtain ⟨d, hd, on⟩ := exists_closesOn kept.toClosedWalk
    exact ⟨d, hd, on, fun apart => apart.canonical_eq hd on⟩
  have earlier : ∀ c ∈ after, ∃ d ∈ before, d.ClosesOn c.names ∧
      (g.Apart excluded c → d ∈ around ∧ d.canonical = c.canonical) := by
    intro c hc
    obtain ⟨kept, avoids⟩ := elementary_of_mem_cycles_insert hc
    obtain ⟨d, hd, on⟩ := exists_closesOn kept.toClosedWalk
    refine ⟨d, hd, on, fun apart => ?_⟩
    have same := apart.canonical_eq hd on
    have avoids' := not_mem_of_canonical_eq (elementary_of_mem_cycles hd) kept same avoids
    exact ⟨mem_around.2 ⟨hd, avoids'⟩, same⟩
  refine ⟨fun c hc => (elementary_of_mem_cycles_insert hc).2, later, earlier, fun apart => ?_⟩
  ext k
  constructor
  · rintro ⟨c, hc, rfl⟩
    have elementary := (elementary_of_mem_cycles_insert hc).1
    obtain ⟨d, -, -, same⟩ := earlier c hc
    exact ⟨d, same (apart c elementary)⟩
  · rintro ⟨c, hc, rfl⟩
    have elementary := elementary_of_mem_cycles (mem_around.1 hc).1
    obtain ⟨d, hd, -, same⟩ := later c hc
    exact ⟨d, hd, same (apart c elementary).insert⟩

/-- Two rings of two classes, with a dependency from one to the other. -/
def twoRings : Graph :=
  ofNames ["A", "B", "X", "Y"] [("A", "B"), ("B", "A"), ("B", "X"), ("X", "Y"), ("Y", "X")]

theorem mem_dependencies_twoRings {user used : String} (h : used ∈ twoRings.dependencies user) :
    (user, used) ∈ [("A", "B"), ("B", "A"), ("B", "X"), ("X", "Y"), ("Y", "X")] :=
  mem_dependencies.1 h

/-- Where no class uses itself, an elementary cycle among two classes goes there and back. -/
theorem Elementary.names_eq_of_pair {p q : String} (h : g.Elementary excluded c)
    (irrefl : ∀ n, n ∉ g.dependencies n) (pair : ∀ n ∈ c.names, n = p ∨ n = q) :
    c.names = [p, q, p] ∨ c.names = [q, p, q] := by
  obtain ⟨names⟩ := c
  obtain ⟨x, rest, rfl⟩ := h.eq_ring
  have distinct : (x :: rest).Nodup := Cycle.ring_concat x rest ▸ h.distinct
  have linked := h.linked
  have hx := pair x (by simp)
  cases rest with
  | nil =>
    have loop : x ∈ g.dependencies x := by simpa using linked
    exact absurd loop (irrefl x)
  | cons y rest =>
    have hy := pair y (by simp)
    cases rest with
    | nil => grind
    | cons z more =>
      have hz := pair z (by simp)
      grind

theorem names_of_elementary_twoRings (h : twoRings.Elementary ∅ c) :
    c.names ∈ [["A", "B", "A"], ["B", "A", "B"], ["X", "Y", "X"], ["Y", "X", "Y"]] := by
  have irrefl : ∀ n, n ∉ twoRings.dependencies n := by
    intro n loop
    have link := mem_dependencies_twoRings loop
    grind
  -- From the second ring no dependency leads back to the first.
  have stays {a b : String} (reach : Relation.ReflTransGen (twoRings.Uses ∅) a b)
      (ha : a = "X" ∨ a = "Y") : b = "X" ∨ b = "Y" := by
    induction reach with
    | refl => exact ha
    | tail _ uses ih =>
      have link := mem_dependencies_twoRings uses.1
      grind
  by_cases second : ∃ n ∈ c.names, n = "X" ∨ n = "Y"
  · obtain ⟨n, hn, on_second⟩ := second
    have pair : ∀ m ∈ c.names, m = "X" ∨ m = "Y" := fun m hm =>
      stays (h.mem_component hn hm).1 on_second
    have names := h.names_eq_of_pair irrefl pair
    simp only [List.mem_cons]
    tauto
  · have pair : ∀ m ∈ c.names, m = "A" ∨ m = "B" := by
      intro m hm
      obtain ⟨b, uses, -⟩ := Relation.TransGen.head'_iff.1
        (transGen_self_iff.2 ⟨c.names, h.toClosedWalk, hm⟩)
      have link := mem_dependencies_twoRings uses.1
      grind
    have names := h.names_eq_of_pair irrefl pair
    simp only [List.mem_cons]
    tauto

theorem apart_of_elementary_twoRings (hc : twoRings.Elementary ∅ c) : twoRings.Apart ∅ c := by
  intro d hd user used on_c on_d
  have through_c : user ∈ c.names := on_c.subset (by simp)
  have through_d : user ∈ d.names := on_d.subset (by simp)
  have disjoint : ∀ xs ∈ [["A", "B", "A"], ["B", "A", "B"], ["X", "Y", "X"], ["Y", "X", "Y"]],
      ∀ ys ∈ [["A", "B", "A"], ["B", "A", "B"], ["X", "Y", "X"], ["Y", "X", "Y"]],
      (∃ n ∈ xs, n ∈ ys) → Cycle.canonical ⟨ys⟩ = Cycle.canonical ⟨xs⟩ := by
    decide
  exact disjoint _ (names_of_elementary_twoRings hc) _ (names_of_elementary_twoRings hd)
    ⟨user, through_c, through_d⟩

theorem findCycles_insert_twoRings :
    (∀ c, twoRings.Elementary ∅ c → twoRings.Apart ∅ c) ∧
    (twoRings.findCycles ∅).cycles = [⟨["A", "B", "A"]⟩, ⟨["X", "Y", "X"]⟩] ∧
    (∃ d ∈ (twoRings.findCycles (NameSet.insert ∅ "X")).cycles,
      d.canonical = ⟨["A", "B", "A"]⟩) ∧
    canonicalForms (twoRings.findCycles (NameSet.insert ∅ "X")).cycles
      = canonicalForms ((twoRings.findCycles ∅).cycles.filter fun c => "X" ∉ c.names) := by
  have apart : ∀ c, twoRings.Elementary ∅ c → twoRings.Apart ∅ c := fun c hc =>
    apart_of_elementary_twoRings hc
  have report : twoRings.findCycles ∅
      = ⟨[⟨["A", "B", "A"]⟩, ⟨["X", "Y", "X"]⟩], []⟩ :=
    findCycles_eq_of_within (show twoRings.findCyclesWithin ∅ 10 = _ by decide)
  have found : (twoRings.findCycles ∅).cycles = [⟨["A", "B", "A"]⟩, ⟨["X", "Y", "X"]⟩] := by
    rw [report]
  have hc : ⟨["A", "B", "A"]⟩ ∈ (twoRings.findCycles ∅).cycles := by simp [found]
  have elementary := elementary_of_mem_cycles hc
  obtain ⟨-, later, -, same⟩ := findCycles_insert twoRings ∅ "X"
  obtain ⟨d, hd, -, equal⟩ := later ⟨["A", "B", "A"]⟩ (List.mem_filter.2 ⟨hc, by decide⟩)
  exact ⟨apart, found, ⟨d, hd, equal (apart _ elementary).insert⟩, same apart⟩

end Graph

end ChangeImpact
