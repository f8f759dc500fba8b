import ChangeImpact.Proofs.Graph.CycleSearch
import Mathlib.Data.List.Flatten
import Mathlib.Data.List.Perm.Subperm
import Mathlib.Data.List.Rotate

/-!
# Every dependency is looked at once

A class is entered once, whichever root leads to it, and then its dependencies are
looked at one after another. So over the whole search no dependency is looked at twice,
and when it ends all dependencies of the classes that are not excluded have been looked
at. What the search writes down it writes down while it looks at a dependency: a pair if
the dependency leads to an excluded class, and a cycle if it leads back to the path.

That two cycles are not the same ring entered at two places is seen from the order in
which classes are finished. On a reported cycle every class but the first is finished
before the class in front of it, so the cycle is read off that order and the set of its
classes.

## Main definitions

* `Search.examined`: the dependencies that have been looked at.
* `Cycle.closing?`: the dependency that was looked at when the cycle was reported.

## Main statements

* `Search.Layout.nodup_examined`: no dependency is looked at twice.
* `Graph.eq_of_mem_names_iff`: no two reported cycles pass the same classes.
* `Graph.findCycles_pruned_exact`: which dependencies are written down as not followed.
* `Graph.findCycles_distinct`: no two reported cycles are the same or end alike.
-/

namespace ChangeImpact

/-! ## Dependencies as pairs -/

/-- The dependencies of a class, each with that class in front. -/
def Graph.row (g : Graph) (user : String) : List (String × String) :=
  (g.dependencies user).toList.map (user, ·)

theorem Graph.mem_flatMap_row {g : Graph} {names : List String} {user used : String} :
    (user, used) ∈ names.flatMap g.row ↔ user ∈ names ∧ used ∈ g.dependencies user := by
  simp only [row, List.mem_flatMap, List.mem_map, Prod.mk.injEq, NameSet.mem_def]
  grind

theorem Graph.nodup_flatMap_row (g : Graph) {names : List String} (distinct : names.Nodup) :
    (names.flatMap g.row).Nodup := by
  rw [List.nodup_flatMap]
  constructor
  · intro user _
    exact (g.dependencies user).nodup.map (Prod.mk_right_injective user)
  · refine distinct.imp fun {user other} different => ?_
    simp only [Function.onFun, List.disjoint_left, row, List.mem_map]
    rintro _ ⟨used, -, rfl⟩ ⟨used', -, same⟩
    exact different (congrArg Prod.fst same).symm

/-- The dependencies of a class on the path that have been looked at. -/
def Frame.examined (f : Frame) : List (String × String) :=
  (f.neighbours.take f.next).map (f.name, ·)

namespace Search

def examined (g : Graph) (s : Search) (done : List String) : List (String × String) :=
  s.frames.flatMap Frame.examined ++ done.flatMap g.row

variable {g : Graph} {excluded : NameSet} {done : List String} {s : Search} {f : Frame}
  {outer : List Frame} {used : String}

theorem examined_enter (s : Search) (done : List String) (name : String) :
    (s.enter g name).examined g done = s.examined g done := by
  simp [examined, Search.enter, Frame.examined]

/-- Up to order only: the dependency joins those of its class, which stand between others. -/
theorem examined_advance_perm (look : s.LooksAt f outer used) (done : List String) :
    ((s.advance f outer).examined g done).Perm ((f.name, used) :: s.examined g done) := by
  have one_more :
      Frame.examined { f with next := f.next + 1 } = f.examined ++ [(f.name, used)] := by
    simp [Frame.examined, List.take_add_one, look.next]
  simp only [examined, Search.advance, look.frames, List.flatMap_cons, one_more,
    List.append_assoc, List.singleton_append]
  exact List.perm_middle

/-- To finish a class only moves its dependencies to those of the finished classes. -/
theorem Layout.examined_leave_perm (h : Layout g excluded done s) (frames : s.frames = f :: outer)
    (exhausted : f.neighbours[f.next]? = none) :
    ((s.leave f outer).examined g (f.name :: done)).Perm (s.examined g done) := by
  have all : f.examined = g.row f.name := by
    rw [Frame.examined, List.take_of_length_le (List.getElem?_eq_none_iff.1 exhausted),
      h.rows f (by simp [frames]), Graph.row]
  simp only [examined, Search.leave, frames, List.flatMap_cons, all, List.append_assoc]
  exact List.perm_append_comm_assoc _ _ _

/-- Only dependencies of the classes entered are looked at. -/
theorem Layout.examined_sublist (h : Layout g excluded done s) :
    (s.examined g done).Sublist ((s.entered done).flatMap g.row) := by
  have partial_rows : s.frames.flatMap Frame.examined
      |>.Sublist (s.frames.flatMap fun f => g.row f.name) := by
    refine List.Sublist.flatMap_right _ fun f hf => ?_
    rw [Frame.examined, h.rows f hf]
    exact (List.take_sublist _ _).map _
  rw [entered, List.flatMap_append, List.flatMap_map]
  exact partial_rows.append (List.Sublist.refl _)

/-- No dependency is looked at twice. -/
theorem Layout.nodup_examined (h : Layout g excluded done s) : (s.examined g done).Nodup :=
  h.examined_sublist.nodup (g.nodup_flatMap_row h.distinct)

/-! ## Dependencies that are not followed -/

/-- A dependency between classes that are not excluded does not count among those not followed. -/
theorem filter_examined_advance_perm (look : s.LooksAt f outer used) (kept : used ∉ excluded)
    (done : List String) :
    (((s.advance f outer).examined g done).filter fun e => e.2 ∈ excluded).Perm
      ((s.examined g done).filter fun e => e.2 ∈ excluded) := by
  have more := (examined_advance_perm (g := g) look done).filter fun e => decide (e.2 ∈ excluded)
  rwa [List.filter_cons_of_neg (by simpa using kept)] at more

/-- What is written down as not followed is what was looked at and leads to an excluded class. -/
theorem Reached.pruned_perm (h : Reached g excluded done s) :
    s.report.pruned.Perm ((s.examined g done).filter fun e => e.2 ∈ excluded) := by
  induction h with
  | start => simp [Search.start, examined]
  | root before idle registered kept white ih =>
    rw [examined_enter]
    exact ih
  | leave before frames exhausted ih =>
    exact ih.trans ((before.layout.examined_leave_perm frames exhausted).filter _).symm
  | @prune done s f outer used before look skipped ih =>
    have more := (examined_advance_perm (g := g) look done).filter fun e => decide (e.2 ∈ excluded)
    rw [List.filter_cons_of_pos (by simpa using skipped)] at more
    exact (List.perm_append_singleton _ _).trans ((ih.cons _).trans more.symm)
  | enter before look kept white ih =>
    rw [examined_enter]
    exact ih.trans (filter_examined_advance_perm look kept _).symm
  | close before look kept gray ih => exact ih.trans (filter_examined_advance_perm look kept _).symm
  | pass before look kept black ih => exact ih.trans (filter_examined_advance_perm look kept _).symm

end Search

/-- When the search ends, the dependencies written down as not followed are those that lead from a
class that is not excluded to an excluded one, each once. -/
theorem Graph.findCycles_pruned_exact (g : Graph) (excluded : NameSet) :
    let pruned := (g.findCycles excluded).pruned
    pruned.Nodup ∧ ∀ user used, (user, used) ∈ pruned ↔
      used ∈ g.dependencies user ∧ user ∉ excluded ∧ used ∈ excluded := by
  intro pruned
  obtain ⟨done, s, reached, idle, all, report⟩ := g.exists_finished excluded
  have perm : pruned.Perm ((done.flatMap g.row).filter fun e => e.2 ∈ excluded) := by
    have perm := reached.pruned_perm
    rw [← report] at perm
    simpa [Search.examined, idle] using perm
  have distinct : done.Nodup := (List.nodup_append.1 reached.layout.distinct).2.1
  refine ⟨perm.nodup_iff.2 ((g.nodup_flatMap_row distinct).filter _), fun user used => ?_⟩
  rw [perm.mem_iff, List.mem_filter, mem_flatMap_row, decide_eq_true_iff]
  constructor
  · rintro ⟨⟨finished, link⟩, skipped⟩
    exact ⟨link, reached.layout.kept user (List.mem_append_right _ finished), skipped⟩
  · rintro ⟨link, kept, skipped⟩
    exact ⟨⟨all user (mem_names_of_mem_dependencies link).1 kept, link⟩, skipped⟩

/-! ## Dependencies that close a cycle -/

namespace Cycle

/-- The last dependency of the cycle, from the name before its last one to its last one. -/
def closing? (c : Cycle) : Option (String × String) :=
  match c.names.reverse with
  | used :: user :: _ => some (user, used)
  | _ => none

theorem ClosesWith.closing?_eq {c : Cycle} {user used : String} (h : c.ClosesWith user used) :
    c.closing? = some (user, used) := by
  obtain ⟨front, names⟩ := h
  simp [closing?, names]

end Cycle

namespace Search

variable {g : Graph} {excluded : NameSet} {done : List String} {s : Search} {f : Frame}
  {outer : List Frame} {used : String}

theorem map_examined_subperm_advance (look : s.LooksAt f outer used) (done : List String) :
    ((s.examined g done).map some).Subperm (((s.advance f outer).examined g done).map some) := by
  have more := (examined_advance_perm (g := g) look done).map some
  exact List.Subperm.cons_self.trans more.symm.subperm

/-- Every cycle was reported while its last dependency was looked at, and each time one. -/
theorem Reached.closing_subperm (h : Reached g excluded done s) :
    (s.report.cycles.map Cycle.closing?).Subperm ((s.examined g done).map some) := by
  induction h with
  | start => exact List.nil_subperm
  | root before idle registered kept white ih =>
    rw [examined_enter]
    exact ih
  | leave before frames exhausted ih =>
    exact ih.trans ((before.layout.examined_leave_perm frames exhausted).map _).symm.subperm
  | prune before look skipped ih => exact ih.trans (map_examined_subperm_advance look _)
  | enter before look kept white ih =>
    rw [examined_enter]
    exact ih.trans (map_examined_subperm_advance look _)
  | @close done s f outer used position before look kept gray ih =>
    have closing := (before.layout.closesWith_close look.frames gray).closing?_eq
    have more := (examined_advance_perm (g := g) look done).map some
    have cycles : ((s.advance f outer).close position used).report.cycles.map Cycle.closing?
        = s.report.cycles.map Cycle.closing? ++ [some (f.name, used)] := by
      rw [← closing]
      exact List.map_append
    rw [cycles]
    exact (List.perm_append_singleton _ _).subperm.trans
      (((List.subperm_cons _).2 ih).trans more.symm.subperm)
  | pass before look kept black ih => exact ih.trans (map_examined_subperm_advance look _)

/-! ## Cycles and the order of finishing -/

/-- The classes of a reported cycle come as they lie on the path, and behind it in the reverse of
the order in which they were finished. -/
theorem Reached.ring_sublist (h : Reached g excluded done s) :
    ∀ c ∈ s.report.cycles, c.ring.Sublist (s.path ++ done) := by
  induction h with
  | start => simp [Search.start]
  | @root done s name before idle registered kept white ih =>
    exact fun c hc => (ih c hc).trans ((List.sublist_append_left s.path [name]).append_right done)
  | @leave done s f outer before frames exhausted ih =>
    -- The class that is left goes from the end of the path to the front of the finished ones.
    have same : (s.leave f outer).path ++ f.name :: done = s.path ++ done := by
      simp [Search.leave, before.layout.path_eq_concat frames]
    rw [same]
    exact ih
  | prune before look skipped ih => exact ih
  | @enter done s f outer used before look kept white ih =>
    exact fun c hc => (ih c hc).trans ((List.sublist_append_left s.path [used]).append_right done)
  | @close done s f outer used position before look kept gray ih =>
    intro c hc
    rcases List.mem_append.1 hc with old | new
    · exact ih c old
    · rw [List.mem_singleton.1 new, Cycle.ring, List.dropLast_concat]
      exact (List.drop_sublist position s.path).trans (List.sublist_append_left _ _)
  | pass before look kept black ih => exact ih

end Search

/-- Of a list without repetition, a part that keeps its order is given by its members. -/
theorem eq_filter_of_sublist {xs all : List String} (h : xs.Sublist all) (distinct : all.Nodup) :
    xs = all.filter (· ∈ xs) := by
  induction h with
  | slnil => rfl
  | @cons xs all x h ih =>
    obtain ⟨fresh, rest⟩ := List.nodup_cons.1 distinct
    have left_out : x ∉ xs := fun hx => fresh (h.subset hx)
    rw [List.filter_cons_of_neg (by simpa using left_out)]
    exact ih rest
  | @cons_cons xs all x h ih =>
    obtain ⟨fresh, rest⟩ := List.nodup_cons.1 distinct
    have same : all.filter (· ∈ x :: xs) = all.filter (· ∈ xs) := by
      refine List.filter_congr fun n hn => ?_
      have different : n ≠ x := fun eq => fresh (eq ▸ hn)
      simp [different]
    rw [List.filter_cons_of_pos (by simp), same, ← ih rest]

namespace Graph

variable {g : Graph} {excluded : NameSet} {c d : Cycle}

theorem ClosedWalk.mem_ring_iff (h : g.ClosedWalk excluded c.names) {n : String} :
    n ∈ c.ring ↔ n ∈ c.names :=
  Cycle.mem_ring_iff h.eq_ring

/-- The name that closes a walk is its first one, so the ring holds all there is to know. -/
theorem ClosedWalk.eq_of_ring_eq (hc : g.ClosedWalk excluded c.names)
    (hd : g.ClosedWalk excluded d.names) (same : c.ring = d.ring) : c = d := by
  obtain ⟨names⟩ := c
  obtain ⟨names'⟩ := d
  obtain ⟨x, rest, rfl⟩ := hc.eq_ring
  obtain ⟨y, rest', rfl⟩ := hd.eq_ring
  rw [Cycle.ring_concat, Cycle.ring_concat] at same
  obtain ⟨rfl, rfl⟩ := List.cons.inj same
  rfl

/-- No two reported cycles pass the same classes. -/
theorem eq_of_mem_names_iff (hc : c ∈ (g.findCycles excluded).cycles)
    (hd : d ∈ (g.findCycles excluded).cycles) (same : ∀ n, n ∈ c.names ↔ n ∈ d.names) : c = d := by
  have walk := (elementary_of_mem_cycles hc).toClosedWalk
  have walk' := (elementary_of_mem_cycles hd).toClosedWalk
  obtain ⟨done, s, reached, idle, -, report⟩ := g.exists_finished excluded
  rw [report] at hc hd
  have path : s.path = [] := by simp [reached.layout.path_eq, idle]
  have distinct : (s.path ++ done).Nodup := by
    simpa [path, Search.entered, idle] using reached.layout.distinct
  have members : ∀ n, n ∈ c.ring ↔ n ∈ d.ring := fun n => by
    rw [walk.mem_ring_iff, walk'.mem_ring_iff, same]
  refine walk.eq_of_ring_eq walk' ?_
  rw [eq_filter_of_sublist (reached.ring_sublist c hc) distinct,
    eq_filter_of_sublist (reached.ring_sublist d hd) distinct]
  simp only [members]

/-- A cycle is closed by a dependency that is being looked at, and none is looked at twice. -/
theorem nodup_closing (g : Graph) (excluded : NameSet) :
    ((g.findCycles excluded).cycles.map Cycle.closing?).Nodup := by
  obtain ⟨done, s, reached, -, -, report⟩ := g.exists_finished excluded
  have distinct := reached.layout.nodup_examined.map (Option.some_injective _)
  obtain ⟨closings, perm, part⟩ := reached.closing_subperm
  rw [report, ← perm.nodup_iff]
  exact part.nodup distinct

/-- The last dependency of a closed walk is one between classes that are not excluded. -/
theorem ClosedWalk.exists_closing (h : g.ClosedWalk excluded c.names) :
    ∃ e ∈ g.edges, e.1 ∉ excluded ∧ e.2 ∉ excluded ∧ c.closing? = some e := by
  obtain ⟨x, rest, names⟩ := h.eq_ring
  rcases (x :: rest).eq_nil_or_concat with none | ⟨front, user, split⟩
  · simp at none
  · have last : c.names = front ++ user :: x :: [] := by simp [names, split]
    have link := List.isChain_iff_forall_rel_of_append_cons_cons.1 h.linked last
    refine ⟨(user, x), mem_edges.2 (mem_dependencies.1 link), ?_, ?_, ?_⟩
    · exact h.kept user (by simp [last])
    · exact h.kept x (by simp [last])
    · exact Cycle.ClosesWith.closing?_eq ⟨front, last⟩

/-- No two reported cycles are the same ring, and no two end with the same dependency. So there are
no more of them than dependencies between classes that are not excluded. -/
theorem findCycles_distinct (g : Graph) (excluded : NameSet) :
    let cycles := (g.findCycles excluded).cycles
    (cycles.Pairwise fun c d => ¬ c.ring.IsRotated d.ring) ∧
    (cycles.map Cycle.canonical).Nodup ∧
    (cycles.map Cycle.closing?).Nodup ∧
    cycles.length ≤ (g.edges.filter fun e => e.1 ∉ excluded ∧ e.2 ∉ excluded).length := by
  intro cycles
  have closing := g.nodup_closing excluded
  have distinct : cycles.Nodup := closing.of_map _
  -- Rotations and canonical forms pass the classes of the cycle, which tell it from the others.
  refine ⟨?_, ?_, closing, ?_⟩
  · refine distinct.pairwise_of_forall_ne fun c hc d hd different rotated => ?_
    have walk := (elementary_of_mem_cycles hc).toClosedWalk
    have walk' := (elementary_of_mem_cycles hd).toClosedWalk
    refine different (eq_of_mem_names_iff hc hd fun n => ?_)
    rw [← walk.mem_ring_iff, ← walk'.mem_ring_iff, rotated.mem_iff]
  · refine distinct.map_on fun c hc d hd same => eq_of_mem_names_iff hc hd fun n => ?_
    have walk := (elementary_of_mem_cycles hc).toClosedWalk
    have walk' := (elementary_of_mem_cycles hd).toClosedWalk
    rw [← walk.mem_canonical_iff, ← walk'.mem_canonical_iff, same]
  · let kept := g.edges.filter fun e => e.1 ∉ excluded ∧ e.2 ∉ excluded
    have within : cycles.map Cycle.closing? ⊆ kept.map some := by
      intro closing hclosing
      obtain ⟨c, hc, rfl⟩ := List.mem_map.1 hclosing
      obtain ⟨e, he, user, used, eq⟩ :=
        (elementary_of_mem_cycles hc).toClosedWalk.exists_closing
      rw [eq]
      exact List.mem_map_of_mem (List.mem_filter.2 ⟨he, by simp [user, used]⟩)
    have le := closing.length_le_of_subset within
    rwa [List.length_map, List.length_map] at le

end Graph

end ChangeImpact
