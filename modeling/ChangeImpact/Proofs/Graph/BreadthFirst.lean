import ChangeImpact.Graph.Impact
import ChangeImpact.Proofs.Graph.Walk
import Mathlib.Data.List.Nodup

/-!
# What a breadth-first search has done

The search keeps of every class that it finds only the class before it. Here each
finding is given the whole walk along which it was found, its trail. On trails it
can be said what holds whenever the search takes the next class from its queue,
and so of its result:

1. every class found has one trail;
2. a trail is a changed class, or it extends the trail of a class that has left
   the queue;
3. the trails come in their order, shorter ones first and those of one length
   name by name;
4. a class that uses one that has left the queue has been found, and no later
   than by extending that one's trail.

The third fact makes the fourth: whatever was found before a class leaves the
queue comes before everything that can be found from it.

## Main definitions

* `Trail`: a finding with the walk that led to it.
* `BreadthFirst`: the facts above, of the classes that have left the queue and of
  those still in it.
* `SearchTree`: the same facts when the queue is empty.
-/

namespace ChangeImpact

/-- A class that was found, behind the classes passed on the way to it. -/
structure Trail where
  front : List String
  name : String

namespace Trail

def names (t : Trail) : List String := t.front ++ [t.name]

def finding (t : Trail) : Finding where
  name := t.name
  origin :=
    match t.front.getLast? with
    | none => .changed
    | some parent => .via parent

def seed (x : String) : Trail := ⟨[], x⟩

def extend (t : Trail) (x : String) : Trail := ⟨t.names, x⟩

@[simp] theorem names_seed (x : String) : (seed x).names = [x] := rfl

@[simp] theorem name_seed (x : String) : (seed x).name = x := rfl

@[simp] theorem names_extend (t : Trail) (x : String) : (t.extend x).names = t.names ++ [x] := rfl

@[simp] theorem name_extend (t : Trail) (x : String) : (t.extend x).name = x := rfl

@[simp] theorem name_finding (t : Trail) : t.finding.name = t.name := rfl

@[simp] theorem finding_seed (x : String) : (seed x).finding = ⟨x, .changed⟩ := rfl

@[simp] theorem finding_extend (t : Trail) (x : String) :
    (t.extend x).finding = ⟨x, .via t.name⟩ := by
  simp [finding, extend, names]

theorem length_names_pos (t : Trail) : 0 < t.names.length := by simp [names]

end Trail

/-- The trails of the classes that use the last class of a trail and have no trail yet. -/
def Graph.extensions (g : Graph) (trails : List Trail) (t : Trail) : List Trail :=
  ((g.dependents t.name).toList.filter fun d => !trails.any (·.name == d)).map t.extend

theorem Graph.mem_extensions {g : Graph} {trails : List Trail} {t u : Trail} :
    u ∈ g.extensions trails t ↔
      ∃ d ∈ g.dependents t.name, d ∉ trails.map Trail.name ∧ u = t.extend d := by
  simp only [extensions, List.mem_map, List.mem_filter, Bool.not_eq_true', List.any_eq_false,
    beq_iff_eq, NameSet.mem_def]
  grind

/-- What the search finds next are the ends of the new trails, so the trails go along with it and
change nothing. -/
theorem Graph.map_finding_extensions (g : Graph) (trails : List Trail) (t : Trail) :
    (g.extensions trails t).map Trail.finding
      = g.newDependents (trails.map Trail.finding) t.name := by
  simp only [extensions, newDependents, List.map_map, List.any_map]
  congr 1
  funext d
  simp

/-! ## The invariant -/

/-- What holds when `done` has left the queue and `queue` is still to be taken. -/
structure BreadthFirst (g : Graph) (changed : NameSet) (done queue : List Trail) : Prop where
  distinct : ((done ++ queue).map Trail.name).Nodup
  seeded : ∀ x ∈ changed, Trail.seed x ∈ done ++ queue
  grown : ∀ t ∈ done ++ queue, (∃ x ∈ changed, t = Trail.seed x) ∨
    ∃ p ∈ done, ∃ d ∈ g.dependents p.name, t = p.extend d
  closed : ∀ p ∈ done, ∀ d ∈ g.dependents p.name,
    ∃ t ∈ done ++ queue, t.name = d ∧ NoLater t.names (p.extend d).names
  sorted : (done ++ queue).Pairwise fun t u => List.Shortlex (· < ·) t.names u.names

namespace BreadthFirst

variable {g : Graph} {changed : NameSet} {done queue : List Trail} {t : Trail}

/-- The search starts with the changed classes, in the order of their names. -/
theorem start (g : Graph) (changed : NameSet) :
    BreadthFirst g changed [] (changed.toList.map Trail.seed) where
  distinct := by
    have names : (changed.toList.map Trail.seed).map Trail.name = changed.toList := by
      simp [Function.comp_def]
    rw [List.nil_append, names]
    exact changed.nodup
  seeded x hx := List.mem_map_of_mem hx
  grown t ht := by
    obtain ⟨x, hx, rfl⟩ := List.mem_map.1 ht
    exact .inl ⟨x, hx, rfl⟩
  closed := by simp
  sorted := by
    rw [List.nil_append, List.pairwise_map]
    exact changed.sorted.imp fun lt => (List.shortlex_singleton_iff _ _).2 lt

/-- Whatever has been found comes before what can be found from the next class in the queue:
the class it was found from left the queue earlier. -/
theorem shortlex_extend (h : BreadthFirst g changed done (t :: queue)) {u : Trail}
    (hu : u ∈ done ++ t :: queue) (d : String) :
    List.Shortlex (· < ·) u.names (t.extend d).names := by
  rcases h.grown u hu with ⟨x, -, rfl⟩ | ⟨p, hp, c, -, rfl⟩
  · have := t.length_names_pos
    exact .of_length_lt (by simp; omega)
  · have earlier : List.Shortlex (· < ·) p.names t.names :=
      (List.pairwise_append.1 h.sorted).2.2 p hp t (by simp)
    exact shortlex_snoc earlier c d

/-- No class gets a second trail: a new one has none yet, and a set of dependents lists nothing
twice. -/
theorem distinct_step (h : BreadthFirst g changed done (t :: queue)) :
    ((done ++ t :: queue ++ g.extensions (done ++ t :: queue) t).map Trail.name).Nodup := by
  rw [List.map_append]
  refine h.distinct.append ?_ ?_
  · simp only [Graph.extensions, List.map_map]
    have names : Trail.name ∘ t.extend = id := rfl
    rw [names, List.map_id]
    exact (g.dependents t.name).nodup.filter _
  · intro n found fresh
    obtain ⟨u, hu, rfl⟩ := List.mem_map.1 fresh
    obtain ⟨d, -, new, rfl⟩ := Graph.mem_extensions.1 hu
    exact new found

/-- The new trails go behind all others, which come before any extension of the trail that is taken;
among themselves they are ordered by their last class. -/
theorem sorted_step (h : BreadthFirst g changed done (t :: queue)) :
    (done ++ t :: queue ++ g.extensions (done ++ t :: queue) t).Pairwise
      fun t u => List.Shortlex (· < ·) t.names u.names := by
  refine List.pairwise_append.2 ⟨h.sorted, ?_, ?_⟩
  · rw [Graph.extensions, List.pairwise_map]
    refine ((g.dependents t.name).sorted.filter _).imp fun lt => ?_
    exact List.Shortlex.append_left ((List.shortlex_singleton_iff _ _).2 lt) t.names
  · intro u hu v hv
    obtain ⟨d, -, -, rfl⟩ := Graph.mem_extensions.1 hv
    exact h.shortlex_extend hu d

/-- A class that uses the one taken from the queue is new, or it was found before. -/
theorem closed_step (h : BreadthFirst g changed done (t :: queue)) {d : String}
    (hd : d ∈ g.dependents t.name) :
    ∃ u ∈ done ++ t :: queue ++ g.extensions (done ++ t :: queue) t,
      u.name = d ∧ NoLater u.names (t.extend d).names := by
  by_cases found : d ∈ (done ++ t :: queue).map Trail.name
  · obtain ⟨u, hu, rfl⟩ := List.mem_map.1 found
    exact ⟨u, List.mem_append_left _ hu, rfl, .inr (h.shortlex_extend hu _)⟩
  · have new : t.extend d ∈ g.extensions (done ++ t :: queue) t :=
      Graph.mem_extensions.2 ⟨d, hd, found, rfl⟩
    exact ⟨t.extend d, List.mem_append_right _ new, rfl, .inl rfl⟩

/-- Taking one class from the queue. -/
theorem step (h : BreadthFirst g changed done (t :: queue)) :
    BreadthFirst g changed (done ++ [t]) (queue ++ g.extensions (done ++ t :: queue) t) := by
  have all : done ++ [t] ++ (queue ++ g.extensions (done ++ t :: queue) t)
      = done ++ t :: queue ++ g.extensions (done ++ t :: queue) t := by simp
  constructor
  · rw [all]
    exact h.distinct_step
  · rw [all]
    intro x hx
    exact List.mem_append_left _ (h.seeded x hx)
  · rw [all]
    intro u hu
    rcases List.mem_append.1 hu with hu | hu
    · refine (h.grown u hu).imp_right ?_
      rintro ⟨p, hp, grown⟩
      exact ⟨p, List.mem_append_left _ hp, grown⟩
    · obtain ⟨d, hd, -, rfl⟩ := Graph.mem_extensions.1 hu
      exact .inr ⟨t, by simp, d, hd, rfl⟩
  · rw [all]
    intro p hp d hd
    rcases List.mem_append.1 hp with hp | hp
    · obtain ⟨u, hu, name, early⟩ := h.closed p hp d hd
      exact ⟨u, List.mem_append_left _ hu, name, early⟩
    · obtain rfl := List.mem_singleton.1 hp
      exact h.closed_step hd
  · rw [all]
    exact h.sorted_step

end BreadthFirst

/-! ## The result -/

/-- What holds of the trails of all classes found. -/
structure SearchTree (g : Graph) (changed : NameSet) (trails : List Trail) : Prop where
  distinct : (trails.map Trail.name).Nodup
  seeded : ∀ x ∈ changed, Trail.seed x ∈ trails
  grown : ∀ t ∈ trails, (∃ x ∈ changed, t = Trail.seed x) ∨
    ∃ p ∈ trails, ∃ d ∈ g.dependents p.name, t = p.extend d
  closed : ∀ p ∈ trails, ∀ d ∈ g.dependents p.name,
    ∃ t ∈ trails, t.name = d ∧ NoLater t.names (p.extend d).names
  sorted : trails.Pairwise fun t u => List.Shortlex (· < ·) t.names u.names

/-- With an empty queue every trail has been extended, so nothing that is affected is without one.
-/
theorem BreadthFirst.searchTree {g : Graph} {changed : NameSet} {trails : List Trail}
    (h : BreadthFirst g changed trails []) : SearchTree g changed trails where
  distinct := by simpa using h.distinct
  seeded := by simpa using h.seeded
  grown := by simpa using h.grown
  closed := by simpa using h.closed
  sorted := by simpa using h.sorted

/-- From any state that the search can be in, it ends with a search tree. -/
theorem Graph.spread_eq_of_breadthFirst {g : Graph} {changed : NameSet}
    {done queue : List Trail} (h : BreadthFirst g changed done queue) :
    ∃ trails, SearchTree g changed trails ∧
      g.spread ((done ++ queue).map Trail.finding) (queue.map Trail.finding)
        = trails.map Trail.finding := by
  generalize hf : (done ++ queue).map Trail.finding = found
  generalize hq : queue.map Trail.finding = waiting
  fun_induction Graph.spread g found waiting generalizing done queue with
  | case1 found =>
    obtain rfl := List.map_eq_nil_iff.1 hq
    exact ⟨done, h.searchTree, by simpa using hf.symm⟩
  | case2 found f waiting more =>
    rename_i ih
    obtain ⟨t, rest, rfl, rfl, rfl⟩ := List.map_eq_cons_iff.1 hq
    have more_eq : (g.extensions (done ++ t :: rest) t).map Trail.finding = more := by
      rw [g.map_finding_extensions, hf]
      rfl
    refine ih h.step ?_ ?_
    · rw [← hf, ← more_eq]
      simp
    · rw [← more_eq]
      simp

/-- The findings of a search are those of a search tree. -/
theorem Graph.exists_searchTree (g : Graph) (changed : NameSet) :
    ∃ trails, SearchTree g changed trails ∧
      (g.propagate changed).findings = trails.map Trail.finding := by
  obtain ⟨trails, tree, found⟩ := spread_eq_of_breadthFirst (.start g changed)
  refine ⟨trails, tree, ?_⟩
  rw [← found]
  simp [propagate, Function.comp_def]

end ChangeImpact
