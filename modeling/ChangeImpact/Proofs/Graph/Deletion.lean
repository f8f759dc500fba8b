import ChangeImpact.Proofs.Graph.CycleSearch
import ChangeImpact.Proofs.Graph.Observation
import ChangeImpact.Proofs.Graph.Projection

/-!
# To exclude a class is to delete it

A search that excludes some classes finds the cycles of the graph without these classes,
in the same order and entered at the same places. The two searches do not keep in step:
the one that excludes looks at dependencies that the other graph does not have. But what
is left of a state when the excluded classes are struck from its colours and its stack is
a state of the other search, and to look at such a dependency does not change it.

## Main definitions

* `Graph.IsDeletion`, `Graph.delete`: a graph holds what is left of another one when some
  classes are deleted.
* `Search.without`: what is left of a state of the search.

## Main statements

* `Search.step_without`, `Search.run_without`: a step on what is left of a state is what is
  left of a step, or there is none to make; and so for whole runs.
* `Graph.exclusion_eq_deletion`: the cycles and the projection with some classes excluded are
  those of the graph without these classes.
-/

namespace ChangeImpact

/-! ## Graphs without some classes -/

namespace Graph

/-- `h` holds the classes of `g` that are not excluded and the dependencies between them, in
whatever order. -/
structure IsDeletion (g : Graph) (excluded : NameSet) (h : Graph) : Prop where
  contains_iff : ∀ n, h.contains n = true ↔ g.contains n = true ∧ n ∉ excluded
  mem_links_iff : ∀ user used, (user, used) ∈ h.links ↔
    (user, used) ∈ g.links ∧ user ∉ excluded ∧ used ∉ excluded

/-- The graph with its classes and dependencies in the same order, less the excluded classes. -/
def delete (g : Graph) (excluded : NameSet) : Graph where
  nodes := g.nodes.filter (·.name ∉ excluded)
  links := g.links.filter fun e => e.1 ∉ excluded ∧ e.2 ∉ excluded
  names_nodup := g.names_nodup.sublist (List.filter_sublist.map _)
  links_nodup := g.links_nodup.filter _
  ends_registered := by
    intro e he
    obtain ⟨link, kept⟩ := List.mem_filter.1 he
    obtain ⟨user, used⟩ := g.ends_registered e link
    grind

theorem isDeletion_delete (g : Graph) (excluded : NameSet) :
    g.IsDeletion excluded (g.delete excluded) where
  contains_iff n := by
    rw [Graph.contains_iff, Graph.contains_iff]
    simp only [delete, List.mem_map, List.mem_filter]
    grind
  mem_links_iff user used := by simp [delete]

namespace IsDeletion

variable {g h : Graph} {excluded : NameSet} {n : String}

/-- Both graphs list their classes by name, so those that are left stay in their order. -/
theorem names_eq (deletion : g.IsDeletion excluded h) :
    h.names.toList = g.names.toList.filter (· ∉ excluded) := by
  have same : h.names = g.names.filter (· ∉ excluded) := by
    refine NameSet.ext fun m => ?_
    rw [NameSet.mem_filter, mem_names, mem_names, ← Graph.contains_iff, ← Graph.contains_iff,
      deletion.contains_iff, decide_eq_true_iff]
  rw [same]
  rfl

theorem dependencies_eq (deletion : g.IsDeletion excluded h) (kept : n ∉ excluded) :
    (h.dependencies n).toList = (g.dependencies n).toList.filter (· ∉ excluded) := by
  have same : h.dependencies n = (g.dependencies n).filter (· ∉ excluded) := by
    refine NameSet.ext fun m => ?_
    rw [NameSet.mem_filter, mem_dependencies, mem_dependencies, deletion.mem_links_iff,
      decide_eq_true_iff]
    simp [kept]
  rw [same]
  rfl

end IsDeletion

end Graph

/-! ## States without some classes -/

namespace Palette

def without (p : Palette) (excluded : NameSet) : Palette :=
  ⟨p.entries.filter (·.1 ∉ excluded)⟩

variable {excluded : NameSet}

theorem get_without (p : Palette) {n : String} (kept : n ∉ excluded) :
    (p.without excluded).get n = p.get n := by
  obtain ⟨entries⟩ := p
  simp only [get, without]
  congr 1
  induction entries with
  | nil => rfl
  | cons e entries ih =>
    obtain ⟨m, c⟩ := e
    by_cases skipped : m ∈ excluded
    · have other : n ≠ m := fun same => kept (same ▸ skipped)
      rw [List.filter_cons_of_neg (by simpa using skipped), ih, List.lookup_cons,
        beq_false_of_ne other]
    · rw [List.filter_cons_of_pos (by simpa using skipped), List.lookup_cons, List.lookup_cons, ih]

theorem without_set (p : Palette) (name : String) (colour : Colour) :
    (p.set name colour).without excluded = (p.without excluded).set name colour := by
  simp only [without, set, List.filter_map]
  congr 2
  refine List.filter_congr fun e _ => ?_
  simp only [Function.comp_apply]
  split_ifs <;> rfl

theorem without_blank (names : List String) :
    (blank names).without excluded = blank (names.filter (· ∉ excluded)) := by
  simp only [without, blank, List.filter_map]
  rfl

end Palette

namespace Frame

/-- The frame with the excluded dependencies struck out. Of those looked at, the others count. -/
def without (f : Frame) (excluded : NameSet) : Frame where
  name := f.name
  neighbours := f.neighbours.filter (· ∉ excluded)
  next := ((f.neighbours.take f.next).filter (· ∉ excluded)).length

variable {excluded : NameSet} {f : Frame} {used : String}

theorem next_without_of_eq_none (exhausted : f.neighbours[f.next]? = none) :
    (f.without excluded).neighbours[(f.without excluded).next]? = none := by
  have all := List.take_of_length_le (List.getElem?_eq_none_iff.1 exhausted)
  simp [without, all]

/-- The dependencies before it that are struck out are not counted either, so the same one is next.
-/
theorem next_without_of_not_mem (next : f.neighbours[f.next]? = some used)
    (kept : used ∉ excluded) :
    (f.without excluded).neighbours[(f.without excluded).next]? = some used := by
  obtain ⟨lt, rfl⟩ := List.getElem?_eq_some_iff.1 next
  have split : f.neighbours = f.neighbours.take f.next ++ f.neighbours[f.next] ::
      f.neighbours.drop (f.next + 1) := by simp
  simp only [without]
  nth_rewrite 1 [split]
  rw [List.filter_append, List.filter_cons_of_pos (by simpa using kept)]
  simp

theorem without_advance_of_not_mem (next : f.neighbours[f.next]? = some used)
    (kept : used ∉ excluded) :
    without { f with next := f.next + 1 } excluded
      = { f.without excluded with next := (f.without excluded).next + 1 } := by
  simp [without, List.take_add_one, next, kept]

/-- To pass over an excluded dependency is no move in the graph that does not have it. -/
theorem without_advance_of_mem (next : f.neighbours[f.next]? = some used)
    (skipped : used ∈ excluded) :
    without { f with next := f.next + 1 } excluded = f.without excluded := by
  simp [without, List.take_add_one, next, skipped]

end Frame

namespace Search

/-- What is left of a state when the excluded classes are struck out. -/
def without (s : Search) (excluded : NameSet) : Search where
  palette := s.palette.without excluded
  path := s.path
  frames := s.frames.map (·.without excluded)
  report := { cycles := s.report.cycles }

/-! ## The moves of the two searches -/

section Moves

variable {g h : Graph} {excluded : NameSet} {s t : Search} {name used : String}

theorem without_start (deletion : g.IsDeletion excluded h) :
    (start g).without excluded = start h := by
  simp only [without, start, Palette.without_blank, deletion.names_eq, List.map_nil]

theorem without_enter (deletion : g.IsDeletion excluded h) (kept : name ∉ excluded) (s : Search) :
    (s.enter g name).without excluded = (s.without excluded).enter h name := by
  simp [without, enter, Palette.without_set, deletion.dependencies_eq kept, Frame.without]

theorem without_leave (s : Search) (f : Frame) (outer : List Frame) :
    (s.leave f outer).without excluded
      = (s.without excluded).leave (f.without excluded) (outer.map (·.without excluded)) := by
  simp only [without, leave, Palette.without_set]
  rfl

theorem get_without (s : Search) (kept : name ∉ excluded) :
    (s.without excluded).palette.get name = s.palette.get name :=
  s.palette.get_without kept

/-- A dependency on a class that is not excluded is treated alike by both searches. -/
theorem without_examine (deletion : g.IsDeletion excluded h) (kept : used ∉ excluded) (s : Search)
    (user : String) :
    (s.examine g excluded user used).without excluded
      = (s.without excluded).examine h ∅ user used := by
  have followed := mt NameSet.contains_iff.1 kept
  have followed' := mt NameSet.contains_iff.1 (NameSet.not_mem_empty (x := used))
  rw [examine, examine, if_neg followed, if_neg followed', get_without s kept]
  cases s.palette.get used with
  | white => exact without_enter deletion kept s
  | gray position => rfl
  | black => rfl

/-- Where the one search makes a step, the other makes the same step, or nothing is left of the
step because the dependency it looks at is on an excluded class. -/
theorem step_without (deletion : g.IsDeletion excluded h) (next : s.step g excluded = some t) :
    t.without excluded = s.without excluded ∨
      (s.without excluded).step h ∅ = some (t.without excluded) := by
  have frames' (f : Frame) (outer : List Frame) (frames : s.frames = f :: outer) :
      (s.without excluded).frames = f.without excluded :: outer.map (·.without excluded) := by
    simp [without, frames]
  rcases step_cases next with ⟨f, outer, frames, exhausted, rfl⟩ | ⟨f, outer, used, look, rfl⟩
  · right
    rw [without_leave, step, frames' f outer frames]
    simp only [Frame.next_without_of_eq_none exhausted]
  · by_cases skipped : used ∈ excluded
    · left
      rw [examine, if_pos (NameSet.contains_iff.2 skipped)]
      simp only [without, prune, advance, look.frames, List.map_cons,
        Frame.without_advance_of_mem look.next skipped]
    · right
      rw [without_examine deletion skipped, step, frames' f outer look.frames]
      simp only [Frame.next_without_of_not_mem look.next skipped]
      simp only [without, advance, List.map_cons,
        Frame.without_advance_of_not_mem look.next skipped]
      rfl

theorem step_without_eq_none (stop : s.step g excluded = none) :
    (s.without excluded).step h ∅ = none := by
  have idle := frames_eq_nil_of_step_eq_none stop
  simp [step, without, idle]

/-- Both searches end, and what is left of where the one ends is where the other ends. -/
theorem run_without (deletion : g.IsDeletion excluded h) (s : Search) :
    (s.run g excluded).without excluded = (s.without excluded).run h ∅ := by
  fun_induction Search.run g excluded s with
  | case1 s stop => exact (run_of_step_eq_none (step_without_eq_none stop)).symm
  | case2 s t next ih =>
    rcases step_without deletion next with stutter | next'
    · rw [ih, stutter]
    · rw [ih, run_of_step_eq_some next']

/-- A step of the larger search is a step of the smaller one or none, and both end together. -/
theorem visit_without (deletion : g.IsDeletion excluded h) (kept : name ∉ excluded) (s : Search) :
    (s.visit g excluded name).without excluded = (s.without excluded).visit h ∅ name := by
  have visited := mt NameSet.contains_iff.1 kept
  have visited' := mt NameSet.contains_iff.1 (NameSet.not_mem_empty (x := name))
  rw [visit, visit, if_neg visited, if_neg visited', get_without s kept]
  split_ifs with white
  · rw [run_without deletion, without_enter deletion kept]
  · rfl

/-- Excluded roots are passed over, and the other graph does not have them. -/
theorem foldl_visit_without (deletion : g.IsDeletion excluded h) (names : List String)
    (s : Search) :
    (names.foldl (visit g excluded) s).without excluded
      = (names.filter (· ∉ excluded)).foldl (visit h ∅) (s.without excluded) := by
  induction names generalizing s with
  | nil => rfl
  | cons name names ih =>
    rw [List.foldl_cons, ih]
    by_cases skipped : name ∈ excluded
    · have passed : s.visit g excluded name = s := by
        rw [visit, if_pos (NameSet.contains_iff.2 skipped)]
      rw [passed, List.filter_cons_of_neg (by simpa using skipped)]
    · rw [visit_without deletion skipped, List.filter_cons_of_pos (by simpa using skipped),
        List.foldl_cons]

end Moves

end Search

/-! ## The two graphs -/

namespace Graph

variable {g h : Graph} {excluded : NameSet}

/-- Striking out the excluded classes turns the one search into the other, root by root. -/
theorem IsDeletion.findCycles_eq (deletion : g.IsDeletion excluded h) :
    h.findCycles ∅ = { cycles := (g.findCycles excluded).cycles } := by
  rw [findCycles, deletion.names_eq, ← Search.without_start deletion,
    ← Search.foldl_visit_without deletion]
  rfl

theorem IsDeletion.neighbourhood_eq (deletion : g.IsDeletion excluded h) {n : String}
    (kept : n ∉ excluded) : g.neighbourhood excluded n = h.neighbourhood ∅ n := by
  have used : (g.dependencies n).filter (fun m => !excluded.contains m)
      = (h.dependencies n).filter (fun m => !(∅ : NameSet).contains m) :=
    NameSet.ext fun m => by simp [deletion.mem_links_iff, kept, NameSet.contains]
  have users : (g.dependents n).filter (fun m => !excluded.contains m)
      = (h.dependents n).filter (fun m => !(∅ : NameSet).contains m) :=
    NameSet.ext fun m => by simp [deletion.mem_links_iff, kept, NameSet.contains]
  rw [neighbourhood, neighbourhood, used, users]

theorem IsDeletion.project_eq (deletion : g.IsDeletion excluded h) :
    g.project excluded = h.project ∅ := by
  have classes : g.kept excluded = h.kept ∅ := by
    refine NameSet.ext fun n => ?_
    rw [mem_kept, mem_kept, mem_names, mem_names, ← Graph.contains_iff, ← Graph.contains_iff,
      deletion.contains_iff]
    simp
  have entries : (g.project excluded).entries = (h.project ∅).entries := by
    rw [entries_project, entries_project, ← classes]
    refine List.map_congr_left fun n hn => ?_
    rw [deletion.neighbourhood_eq (mem_kept.1 hn).2]
  exact Projection.ext entries

/-- A graph without some classes has the cycles that the other one has with these classes
excluded, in the same order and entered at the same classes. Nothing is left to prune in it, and
its projection is the same. -/
theorem exclusion_eq_deletion (g : Graph) (excluded : NameSet) (h : Graph)
    (deletion : g.IsDeletion excluded h) :
    (g.findCycles excluded).cycles = (h.findCycles ∅).cycles ∧ (h.findCycles ∅).pruned = [] ∧
      g.project excluded = h.project ∅ := by
  rw [deletion.findCycles_eq]
  exact ⟨rfl, rfl, deletion.project_eq⟩

/-- Excluding `B`, the search passes over the first dependency of `A`. -/
theorem exclusion_eq_deletion_twoRoutes :
    twoRoutes.IsDeletion (NameSet.insert ∅ "B") (twoRoutes.delete (NameSet.insert ∅ "B")) ∧
    (twoRoutes.findCycles (NameSet.insert ∅ "B")).pruned = [("A", "B")] ∧
    (twoRoutes.findCycles (NameSet.insert ∅ "B")).cycles
      = ((twoRoutes.delete (NameSet.insert ∅ "B")).findCycles ∅).cycles ∧
    ((twoRoutes.delete (NameSet.insert ∅ "B")).findCycles ∅).cycles = [⟨["A", "C", "D", "A"]⟩] := by
  have deletion := twoRoutes.isDeletion_delete (NameSet.insert ∅ "B")
  have same := (exclusion_eq_deletion twoRoutes _ _ deletion).1
  exact ⟨deletion, by rw [findCycles_twoRoutes_insert], same,
    by rw [← same, findCycles_twoRoutes_insert]⟩

end Graph

end ChangeImpact
