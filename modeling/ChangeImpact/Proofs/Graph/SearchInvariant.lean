import ChangeImpact.Proofs.Graph.Examination

/-!
# What holds at every step of the search

The search keeps three things that say the same in different ways: the path, the stack of
frames and the colours. They agree in every state that the search passes, whether a class
has just been entered, a dependency looked at or a class left.

Two facts about the colours go beyond that. A dependency that has been looked at leads to
an excluded class or to one that has been entered, so nothing white lies behind a black
class. And every class keeps its place in the palette, so no colour is ever asked for that
is not there.

## Main definitions

* `Search.Passes`: the search passes a state, at a step or between two roots.
* `Search.Coherent`: how colours, path and stack of a state go together.

## Main statements

* `Search.Reached.leadsInto`: what has been looked at is excluded or has been entered.
* `Search.Passes.coherent`: every state that the search passes is coherent.
-/

namespace ChangeImpact

/-! ## Which classes have a colour -/

namespace Palette

def names (p : Palette) : List String := p.entries.map Prod.fst

@[simp] theorem names_blank (classes : List String) : (blank classes).names = classes := by
  simp [names, blank, Function.comp_def]

@[simp] theorem names_set (p : Palette) (name : String) (colour : Colour) :
    (p.set name colour).names = p.names := by
  simp only [names, set, List.map_map]
  refine List.map_congr_left fun e _ => ?_
  by_cases here : e.1 = name <;> simp [here]

/-- For a class with a colour, the default of the lookup is never used. -/
theorem lookup_eq_some_get {p : Palette} {n : String} (coloured : n ∈ p.names) :
    p.entries.lookup n = some (p.get n) := by
  cases found : p.entries.lookup n with
  | none =>
    obtain ⟨e, he, rfl⟩ := List.mem_map.1 coloured
    exact absurd (List.lookup_eq_none_iff.1 found e he) (by simp)
  | some colour => simp [get, found]

end Palette

namespace Search

variable {g : Graph} {excluded : NameSet} {done : List String} {s t : Search} {f : Frame}
  {outer : List Frame} {used : String}

theorem Reached.names_palette (h : Reached g excluded done s) :
    s.palette.names = g.names.toList := by
  induction h with
  | start => exact Palette.names_blank _
  | root before idle registered kept white ih => exact (Palette.names_set _ _ _).trans ih
  | leave before frames exhausted ih => exact (Palette.names_set _ _ _).trans ih
  | prune before look skipped ih => exact ih
  | enter before look kept white ih => exact (Palette.names_set _ _ _).trans ih
  | close before look kept gray ih => exact ih
  | pass before look kept black ih => exact ih

/-! ## How far the frames have come -/

/-- No frame has come farther than its last dependency. -/
def InRange (s : Search) : Prop := ∀ f ∈ s.frames, f.next ≤ f.neighbours.length

theorem InRange.enter (h : s.InRange) (name : String) : (s.enter g name).InRange :=
  List.forall_mem_cons.2 ⟨Nat.zero_le _, h⟩

theorem InRange.advance (h : s.InRange) (look : s.LooksAt f outer used) :
    (s.advance f outer).InRange := by
  have next_lt : f.next < f.neighbours.length := (List.getElem?_eq_some_iff.1 look.next).1
  rw [InRange, look.frames] at h
  exact List.forall_mem_cons.2 ⟨next_lt, (List.forall_mem_cons.1 h).2⟩

/-- By induction on the moves; the machine moves on only where a dependency is left. -/
theorem Reached.inRange (h : Reached g excluded done s) : s.InRange := by
  induction h with
  | start => simp [InRange, Search.start]
  | root before idle registered kept white ih => exact ih.enter _
  | leave before frames exhausted ih =>
    rw [InRange, frames] at ih
    exact (List.forall_mem_cons.1 ih).2
  | prune before look skipped ih => exact ih.advance look
  | enter before look kept white ih => exact (ih.advance look).enter _
  | close before look kept gray ih => exact ih.advance look
  | pass before look kept black ih => exact ih.advance look

/-! ## Where looking leads -/

/-- Every dependency that has been looked at leads to an excluded class or to one of `entered`. -/
def LeadsInto (g : Graph) (excluded : NameSet) (s : Search) (done entered : List String) : Prop :=
  ∀ e ∈ s.examined g done, e.2 ∉ excluded → e.2 ∈ entered

namespace LeadsInto

variable {entered entered' : List String}

theorem mono (h : LeadsInto g excluded s done entered) (more : entered ⊆ entered') :
    LeadsInto g excluded s done entered' :=
  fun e he kept => more (h e he kept)

/-- Nothing but the dependency just looked at is new, so only that one has to be accounted for. -/
theorem advance (h : LeadsInto g excluded s done entered) (look : s.LooksAt f outer used)
    (here : used ∉ excluded → used ∈ entered) :
    LeadsInto g excluded (s.advance f outer) done entered := by
  intro e he
  rw [(examined_advance_perm look done).mem_iff, List.mem_cons] at he
  rcases he with rfl | old
  · exact here
  · exact h e old

end LeadsInto

/-- Nothing white lies behind what has been looked at, unless it is excluded. -/
theorem Reached.leadsInto (h : Reached g excluded done s) :
    LeadsInto g excluded s done (s.entered done) := by
  induction h with
  | start => simp [LeadsInto, examined, Search.start]
  | @root done s name before idle registered kept white ih =>
    rw [LeadsInto, examined_enter]
    exact ih.mono (List.subset_cons_self name _)
  | leave before frames exhausted ih =>
    intro e he kept
    rw [(before.layout.examined_leave_perm frames exhausted).mem_iff] at he
    exact (entered_leave_perm frames _).mem_iff.2 (ih e he kept)
  | prune before look skipped ih =>
    rw [← entered_advance look.frames] at ih
    exact ih.advance look fun kept => absurd skipped kept
  | @enter done s f outer used before look kept white ih =>
    rw [← entered_advance look.frames] at ih
    rw [LeadsInto, examined_enter]
    exact (ih.mono (List.subset_cons_self used _)).advance look fun _ => List.mem_cons_self
  | @close done s f outer used position before look kept gray ih =>
    have entered : used ∈ s.entered done :=
      (before.layout.mem_entered_iff (before.layout.mem_names look)).2 (by simp [gray])
    rw [← entered_advance look.frames] at ih entered
    exact ih.advance look fun _ => entered
  | @pass done s f outer used before look kept black ih =>
    have entered : used ∈ s.entered done :=
      (before.layout.mem_entered_iff (before.layout.mem_names look)).2 (by simp [black])
    rw [← entered_advance look.frames] at ih entered
    exact ih.advance look fun _ => entered

/-! ## Coherent states -/

/-- How colours, path and stack of a state go together. -/
structure Coherent (g : Graph) (excluded : NameSet) (s : Search) : Prop where
  /-- The path is the stack, the outermost class first. -/
  path_eq : s.path = (s.frames.map Frame.name).reverse
  /-- No class is on the path twice. -/
  distinct : s.path.Nodup
  /-- The gray classes are those on the path, each with its position. -/
  gray_iff : ∀ n i, s.palette.get n = .gray i ↔ s.path[i]? = some n
  /-- A frame holds the dependencies of its class. -/
  rows : ∀ f ∈ s.frames, f.neighbours = (g.dependencies f.name).toList
  /-- A frame has come no farther than its last dependency. -/
  next_le : ∀ f ∈ s.frames, f.next ≤ f.neighbours.length
  /-- An excluded class stays as it was. -/
  excluded_white : ∀ n ∈ g.names, n ∈ excluded → s.palette.get n = .white
  /-- No dependency of a black class is left to enter. -/
  black_closed : ∀ n, s.palette.get n = .black →
    ∀ d ∈ g.dependencies n, d ∉ excluded → s.palette.get d ≠ .white
  /-- The classes that have a colour are those of the graph. -/
  coloured : s.palette.names = g.names.toList

theorem Layout.white_of_mem_excluded (h : Layout g excluded done s) {n : String}
    (registered : n ∈ g.names) (skipped : n ∈ excluded) : s.palette.get n = .white := by
  by_contra notWhite
  exact h.kept n ((h.mem_entered_iff registered).2 notWhite) skipped

/-- A finished class has had all its dependencies looked at, and a white one would have been
entered. -/
theorem Reached.ne_white_of_black (h : Reached g excluded done s) {n d : String}
    (black : s.palette.get n = .black) (link : d ∈ g.dependencies n) (kept : d ∉ excluded) :
    s.palette.get d ≠ .white := by
  obtain ⟨user, registered⟩ := Graph.mem_names_of_mem_dependencies link
  have finished := (h.layout.black_iff n user).1 black
  have looked : (n, d) ∈ s.examined g done :=
    List.mem_append_right _ (Graph.mem_flatMap_row.2 ⟨finished, link⟩)
  exact (h.layout.mem_entered_iff registered).1 (h.leadsInto _ looked kept)

theorem Reached.coherent (h : Reached g excluded done s) : Coherent g excluded s where
  path_eq := h.layout.path_eq
  distinct := h.layout.nodup_path
  gray_iff := h.layout.gray_iff
  rows := h.layout.rows
  next_le := h.inRange
  excluded_white _ registered skipped := h.layout.white_of_mem_excluded registered skipped
  black_closed _ black _ link kept := h.ne_white_of_black black link kept
  coloured := h.names_palette

/-- What is cut off the path at the position of a gray class begins with that class. -/
theorem Coherent.drop_path_eq_cons (h : Coherent g excluded s) {position : Nat}
    (gray : s.palette.get used = .gray position) :
    position < s.path.length ∧ s.path.drop position = used :: s.path.drop (position + 1) := by
  obtain ⟨lt, here⟩ := List.getElem?_eq_some_iff.1 ((h.gray_iff used position).1 gray)
  exact ⟨lt, by rw [List.drop_eq_getElem_cons lt, here]⟩

/-! ## The states of a search -/

/-- The search for cycles passes the state `s`: between two roots, when it has entered a root, or
by a step. -/
inductive Passes (g : Graph) (excluded : NameSet) : Search → Prop
  | between {visited rest : List String} (roots : g.names.toList = visited ++ rest) :
      Passes g excluded (visited.foldl (visit g excluded) (start g))
  | root {visited rest : List String} {root : String}
      (roots : g.names.toList = visited ++ root :: rest) (kept : root ∉ excluded)
      (white : (visited.foldl (visit g excluded) (start g)).palette.get root = .white) :
      Passes g excluded ((visited.foldl (visit g excluded) (start g)).enter g root)
  | step {s t : Search} (before : Passes g excluded s) (next : s.step g excluded = some t) :
      Passes g excluded t

/-- Between two roots the machine is in a state that is reached, with nothing on its stack. -/
theorem exists_reached_between {visited rest : List String}
    (roots : g.names.toList = visited ++ rest) :
    ∃ done, Reached g excluded done (visited.foldl (visit g excluded) (start g)) ∧
      (visited.foldl (visit g excluded) (start g)).frames = [] := by
  have registered : ∀ n ∈ visited, n ∈ g.names := fun n hn => by
    rw [NameSet.mem_def, roots]
    exact List.mem_append_left _ hn
  have first : Reached g excluded [] (Search.start g) := .start
  obtain ⟨done, reached, idle, -⟩ := first.foldl_visit rfl visited registered
  exact ⟨done, reached, idle⟩

/-- A state that is passed is a state that is reached, with some classes finished; so what holds of
those holds of these. -/
theorem Passes.exists_reached (h : Passes g excluded s) : ∃ done, Reached g excluded done s := by
  induction h with
  | between roots =>
    obtain ⟨done, reached, -⟩ := exists_reached_between roots
    exact ⟨done, reached⟩
  | @root visited rest root roots kept white =>
    obtain ⟨done, reached, idle⟩ := exists_reached_between roots
    have registered : root ∈ g.names := by
      rw [NameSet.mem_def, roots]
      exact List.mem_append_right _ List.mem_cons_self
    exact ⟨done, reached.root idle registered kept white⟩
  | step before next ih =>
    obtain ⟨done, reached⟩ := ih
    obtain ⟨done', reached', -⟩ := reached.step next
    exact ⟨done', reached'⟩

theorem Passes.coherent (h : Passes g excluded s) : Coherent g excluded s := by
  obtain ⟨done, reached⟩ := h.exists_reached
  exact reached.coherent

end Search

end ChangeImpact
