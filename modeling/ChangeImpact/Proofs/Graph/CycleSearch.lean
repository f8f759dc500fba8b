import ChangeImpact.Proofs.Graph.ClosedWalk
import ChangeImpact.Proofs.Graph.DepthFirst
import ChangeImpact.Proofs.Graph.Store

/-!
# Which cycles are found

A cycle is reported when the innermost class depends on a class of the path, and then
it is the rest of the path from there. So it is elementary, and its last dependency is
the one that was just looked at.

Not every elementary cycle is reported, but none is missed altogether. When a class is
finished, each of its dependencies leads to an excluded class, to a class finished
before, or it has closed a cycle. Along dependencies that close no cycle the search can
thus only step back in the order of finishing, and never return.

## Main definitions

* `FinishedInOrder`: what has become of the dependencies of the finished classes.
* `StackAccounted`: the same for the dependencies looked at so far.

## Main statements

* `Graph.elementary_of_mem_cycles`: every reported cycle is elementary.
* `Graph.exists_closesOn`: every closed walk follows the closing dependency of a
  reported cycle.
-/

namespace ChangeImpact

open Relation (ReflTransGen TransGen)

/-! ## Reported cycles are elementary -/

namespace Search

variable {g : Graph} {excluded : NameSet} {done : List String} {s : Search} {f : Frame}
  {outer : List Frame} {used : String} {position : Nat}

theorem Layout.isChain_path (h : Layout g excluded done s) :
    s.path.IsChain fun user used => used ∈ g.dependencies user := by
  rw [h.path_eq, List.isChain_reverse, List.isChain_map]
  exact h.linked

/-- The path from a gray class on starts with that class and ends with the innermost one. -/
theorem Layout.drop_path_eq (h : Layout g excluded done s) (frames : s.frames = f :: outer)
    (gray : s.palette.get used = .gray position) :
    (∃ back, s.path.drop position = used :: back) ∧
      ∃ front, s.path.drop position = front ++ [f.name] := by
  obtain ⟨lt, at_position⟩ := List.getElem?_eq_some_iff.1 ((h.gray_iff used position).1 gray)
  have path_eq := h.path_eq_concat frames
  refine ⟨⟨s.path.drop (position + 1), ?_⟩, ⟨(outer.map Frame.name).reverse.drop position, ?_⟩⟩
  · rw [List.drop_eq_getElem_cons lt, at_position]
  · have le : position ≤ (outer.map Frame.name).reverse.length := by
      rw [path_eq, List.length_append, List.length_singleton] at lt
      omega
    rw [path_eq, List.drop_append_of_le_length le]

/-- The path is linked and passes no class twice; from the gray class on it begins with that class,
and the dependency leads back to it. -/
theorem Layout.elementary_close (h : Layout g excluded done s) (look : s.LooksAt f outer used)
    (gray : s.palette.get used = .gray position) :
    g.Elementary excluded ⟨s.path.drop position ++ [used]⟩ := by
  obtain ⟨⟨back, from_used⟩, front, to_innermost⟩ := h.drop_path_eq look.frames gray
  have on_path : ∀ n ∈ s.path.drop position ++ [used], n ∈ s.path := by
    intro n hn
    rcases List.mem_append.1 hn with hn | hn
    · exact List.mem_of_mem_drop hn
    · rw [List.mem_singleton.1 hn]
      exact List.mem_of_getElem? ((h.gray_iff used position).1 gray)
  constructor
  case toClosedWalk =>
    constructor
    case proper => simp [from_used]
    case closed =>
      rw [from_used, List.getLast?_concat]
      rfl
    case kept =>
      intro n hn
      exact h.kept n (List.mem_append_left _ (h.mem_path_iff.1 (on_path n hn)))
    case linked =>
      -- What the path does not show is the dependency that closes it.
      refine (h.isChain_path.drop position).append (.singleton used) ?_
      intro a ha b hb
      have last : f.name = a := by simpa [to_innermost] using ha
      have first : used = b := by simpa using hb
      rw [← last, ← first]
      exact h.mem_dependencies look
  case distinct =>
    rw [Cycle.ring, List.dropLast_concat]
    exact (List.drop_sublist position s.path).nodup h.nodup_path

/-- The path ends with the class that was looked at, so the cycle ends with its dependency. -/
theorem Layout.closesWith_close (h : Layout g excluded done s) (frames : s.frames = f :: outer)
    (gray : s.palette.get used = .gray position) :
    Cycle.ClosesWith ⟨s.path.drop position ++ [used]⟩ f.name used := by
  obtain ⟨-, front, to_innermost⟩ := h.drop_path_eq frames gray
  refine ⟨front, ?_⟩
  change s.path.drop position ++ [used] = front ++ [f.name, used]
  simp [to_innermost]

/-- By induction on the moves, of which one alone adds a cycle. -/
theorem Reached.elementary (h : Reached g excluded done s) :
    ∀ c ∈ s.report.cycles, g.Elementary excluded c := by
  induction h with
  | start => simp [Search.start]
  | root before idle registered kept white ih => exact ih
  | leave before frames exhausted ih => exact ih
  | prune before look skipped ih => exact ih
  | enter before look kept white ih => exact ih
  | close before look kept gray ih =>
    intro c hc
    rcases List.mem_append.1 hc with old | new
    · exact ih c old
    · rw [List.mem_singleton.1 new]
      exact before.layout.elementary_close look gray
  | pass before look kept black ih => exact ih

end Search

namespace Graph

theorem elementary_of_mem_cycles {g : Graph} {excluded : NameSet} {c : Cycle}
    (hc : c ∈ (g.findCycles excluded).cycles) : g.Elementary excluded c := by
  obtain ⟨done, s, reached, -, -, report⟩ := g.exists_finished excluded
  rw [report] at hc
  exact reached.elementary c hc

/-- A reported cycle follows dependencies between classes that are not excluded from a class back
to that class, and passes no class twice. -/
theorem findCycles_elementary (g : Graph) (excluded : NameSet) (c : Cycle)
    (hc : c ∈ (g.findCycles excluded).cycles) :
    2 ≤ c.names.length ∧ c.names.head? = c.names.getLast? ∧ c.names.dropLast.Nodup ∧
    (∀ n ∈ c.names, n ∉ excluded) ∧
    c.names.IsChain fun user used => used ∈ g.dependencies user := by
  obtain ⟨⟨proper, closed, kept, linked⟩, distinct⟩ := elementary_of_mem_cycles hc
  exact ⟨proper, closed, distinct, kept, linked⟩

/-- A class reaches another one along two routes, and that one uses it. -/
def twoRoutes : Graph :=
  ofNames ["A", "B", "C", "D"] [("A", "B"), ("A", "C"), ("B", "D"), ("C", "D"), ("D", "A")]

theorem findCycles_twoRoutes :
    twoRoutes.findCycles ∅ = ⟨[⟨["A", "B", "D", "A"]⟩], []⟩ :=
  findCycles_eq_of_within (show twoRoutes.findCyclesWithin ∅ 10 = _ by decide)

-- Without `B`, the search comes to `D` by way of `C`.
theorem findCycles_twoRoutes_insert :
    twoRoutes.findCycles (NameSet.insert ∅ "B") = ⟨[⟨["A", "C", "D", "A"]⟩], [("A", "B")]⟩ :=
  findCycles_eq_of_within (show twoRoutes.findCyclesWithin _ 10 = _ by decide)

theorem findCycles_elementary_twoRoutes :
    ⟨["A", "B", "D", "A"]⟩ ∈ (twoRoutes.findCycles ∅).cycles ∧
    ["A", "B", "D"].Nodup ∧
    ["A", "B", "D", "A"].IsChain fun user used => used ∈ twoRoutes.dependencies user := by
  have hc : ⟨["A", "B", "D", "A"]⟩ ∈ (twoRoutes.findCycles ∅).cycles := by
    simp [findCycles_twoRoutes]
  have elementary := findCycles_elementary twoRoutes ∅ _ hc
  exact ⟨hc, elementary.2.2.1, elementary.2.2.2.2⟩

end Graph

/-! ## What becomes of a dependency -/

/-- One of the cycles ends with this dependency. -/
def Closing (cycles : List Cycle) (user used : String) : Prop :=
  ∃ c ∈ cycles, c.ClosesWith user used

/-- The dependency leads to an excluded class, or to one of `older`, or one of the cycles ends
with it. -/
def Accounted (excluded : NameSet) (cycles : List Cycle) (older : List String)
    (user used : String) : Prop :=
  used ∈ excluded ∨ used ∈ older ∨ Closing cycles user used

/-- Every dependency of a finished class is accounted for by the classes finished before it. -/
def FinishedInOrder (g : Graph) (excluded : NameSet) (cycles : List Cycle) : List String → Prop
  | [] => True
  | n :: older => (∀ d ∈ g.dependencies n, Accounted excluded cycles older n d) ∧
      FinishedInOrder g excluded cycles older

/-- Every dependency that has been looked at is accounted for by what is finished when its user
will be: the classes in `done` and those further inside. -/
def StackAccounted (excluded : NameSet) (cycles : List Cycle) : List Frame → List String → Prop
  | [], _ => True
  | f :: outer, done => (∀ d ∈ f.neighbours.take f.next, Accounted excluded cycles done f.name d) ∧
      StackAccounted excluded cycles outer (f.name :: done)

section

variable {g : Graph} {excluded : NameSet} {cycles cycles' : List Cycle} {older older' : List String}

theorem Accounted.mono {user used : String} (h : Accounted excluded cycles older user used)
    (found : cycles ⊆ cycles') (finished : older ⊆ older') :
    Accounted excluded cycles' older' user used := by
  rcases h with skipped | old | ⟨c, hc, closes⟩
  · exact .inl skipped
  · exact .inr (.inl (finished old))
  · exact .inr (.inr ⟨c, found hc, closes⟩)

theorem FinishedInOrder.mono {done : List String} (h : FinishedInOrder g excluded cycles done)
    (found : cycles ⊆ cycles') : FinishedInOrder g excluded cycles' done := by
  induction done with
  | nil => trivial
  | cons n older ih =>
    exact ⟨fun d hd => (h.1 d hd).mono found (List.Subset.refl _), ih h.2⟩

theorem StackAccounted.mono {frames : List Frame} (h : StackAccounted excluded cycles frames older)
    (found : cycles ⊆ cycles') (finished : older ⊆ older') :
    StackAccounted excluded cycles' frames older' := by
  induction frames generalizing older older' with
  | nil => trivial
  | cons f outer ih =>
    refine ⟨fun d hd => (h.1 d hd).mono found finished, ih h.2 ?_⟩
    exact List.cons_subset_cons f.name finished

end

namespace Search

variable {g : Graph} {excluded : NameSet} {done : List String} {s : Search} {f : Frame}
  {outer : List Frame} {used : String} {cycles : List Cycle}

/-- The dependency that is looked at joins those that are accounted for. -/
theorem LooksAt.stackAccounted_advance (look : s.LooksAt f outer used)
    (h : StackAccounted excluded cycles s.frames done)
    (account : Accounted excluded cycles done f.name used) :
    StackAccounted excluded cycles (s.advance f outer).frames done := by
  rw [look.frames] at h
  refine ⟨fun d hd => ?_, h.2⟩
  rw [List.take_add_one, look.next, List.mem_append] at hd
  rcases hd with old | new
  · exact h.1 d old
  · obtain rfl : d = used := by simpa using new
    exact account

/-- By induction on the moves. Only a dependency that has just been looked at is new here, and each
way to look at it accounts for it. -/
theorem Reached.stackAccounted (h : Reached g excluded done s) :
    StackAccounted excluded s.report.cycles s.frames done := by
  induction h with
  | start => trivial
  | root before idle registered kept white ih =>
    exact ⟨by simp, by rw [idle]; trivial⟩
  | leave before frames exhausted ih =>
    rw [frames] at ih
    exact ih.2
  | prune before look skipped ih =>
    exact look.stackAccounted_advance ih (.inl skipped)
  | @enter done s f outer used before look kept white ih =>
    -- By the time that its user is finished the class entered here is finished too.
    have later := ih.mono (List.Subset.refl _) (List.subset_cons_self used done)
    refine ⟨by simp, ?_⟩
    exact look.stackAccounted_advance later (.inr (.inl (by simp)))
  | @close done s f outer used position before look kept gray ih =>
    have grown := ih.mono (List.subset_append_left _ [⟨s.path.drop position ++ [used]⟩])
      (List.Subset.refl _)
    have closes := before.layout.closesWith_close look.frames gray
    exact look.stackAccounted_advance grown (.inr (.inr ⟨_, List.mem_concat_self, closes⟩))
  | pass before look kept black ih =>
    have finished := (before.layout.black_iff _ (before.layout.mem_names look)).1 black
    exact look.stackAccounted_advance ih (.inr (.inl finished))

/-- A class is left when all its dependencies have been looked at, and what accounted for them on
the stack accounts for them then. -/
theorem Reached.finishedInOrder (h : Reached g excluded done s) :
    FinishedInOrder g excluded s.report.cycles done := by
  induction h with
  | start => trivial
  | root before idle registered kept white ih => exact ih
  | @leave done s f outer before frames exhausted ih =>
    have account := before.stackAccounted
    rw [frames] at account
    have row := before.layout.rows f (by simp [frames])
    refine ⟨fun d hd => account.1 d ?_, ih⟩
    rw [List.take_of_length_le (List.getElem?_eq_none_iff.1 exhausted), row]
    exact hd
  | prune before look skipped ih => exact ih
  | enter before look kept white ih => exact ih
  | close before look kept gray ih => exact ih.mono (List.subset_append_left _ _)
  | pass before look kept black ih => exact ih

end Search

/-! ## Nothing is missed -/

/-- A dependency between classes that are not excluded, with which none of the cycles ends. -/
def Graph.Unclosed (g : Graph) (excluded : NameSet) (cycles : List Cycle)
    (user used : String) : Prop :=
  g.Uses excluded user used ∧ ¬ Closing cycles user used

namespace FinishedInOrder

variable {g : Graph} {excluded : NameSet} {cycles : List Cycle} {done : List String}
  {a b : String}

/-- Along a dependency that closes no cycle one stays among the finished classes. -/
theorem mem_of_unclosed (h : FinishedInOrder g excluded cycles done) (ha : a ∈ done)
    (link : g.Unclosed excluded cycles a b) : b ∈ done := by
  induction done with
  | nil => simp at ha
  | cons n older ih =>
    rcases List.mem_cons.1 ha with rfl | ha
    · rcases h.1 b link.1.1 with skipped | old | closes
      · exact absurd skipped link.1.2.2
      · exact List.mem_cons_of_mem _ old
      · exact absurd closes link.2
    · exact List.mem_cons_of_mem n (ih h.2 ha)

theorem mem_of_reflTransGen (h : FinishedInOrder g excluded cycles done) (ha : a ∈ done)
    (reach : ReflTransGen (g.Unclosed excluded cycles) a b) : b ∈ done := by
  induction reach with
  | refl => exact ha
  | tail _ link ih => exact h.mem_of_unclosed ih link

/-- Dependencies that close no cycle never lead back. -/
theorem not_transGen_self (h : FinishedInOrder g excluded cycles done) (ha : a ∈ done) :
    ¬ TransGen (g.Unclosed excluded cycles) a a := by
  induction done with
  | nil => simp at ha
  | cons n older ih =>
    intro round
    by_cases old : a ∈ older
    · exact ih h.2 old round
    · -- The first step leaves the class finished last, and behind it all steps stay among the rest.
      obtain rfl : a = n := (List.mem_cons.1 ha).resolve_right old
      obtain ⟨b, link, back⟩ := TransGen.head'_iff.1 round
      rcases h.1 b link.1.1 with skipped | earlier | closes
      · exact link.1.2.2 skipped
      · exact old (h.2.mem_of_reflTransGen earlier back)
      · exact link.2 closes

end FinishedInOrder

namespace Graph

variable {g : Graph} {excluded : NameSet} {names : List String}

/-- A walk that closes on no cycle would lead back to where it began along dependencies that never
do. -/
theorem exists_closesOn (walk : g.ClosedWalk excluded names) :
    ∃ c ∈ (g.findCycles excluded).cycles, c.ClosesOn names := by
  obtain ⟨done, s, reached, -, all, report⟩ := g.exists_finished excluded
  rw [report]
  by_contra none
  obtain ⟨x, uses⟩ := walk.exists_walk
  have unclosed : Walk (g.Unclosed excluded s.report.cycles) x x names := by
    refine ⟨uses.first, uses.last, ?_⟩
    have both := List.isChain_iff_forall_rel_of_append_cons_cons.1 uses.linked
    refine List.isChain_iff_forall_rel_of_append_cons_cons.2 fun a b front back split => ?_
    refine ⟨both split, ?_⟩
    rintro ⟨c, hc, closes⟩
    exact none ⟨c, hc, a, b, closes, front, back, by simp [split]⟩
  have round := unclosed.transGen walk.proper
  obtain ⟨y, link, -⟩ := TransGen.head'_iff.1 round
  have registered := (mem_names_of_mem_dependencies link.1.1).1
  exact reached.finishedInOrder.not_transGen_self (all x registered link.1.2.1) round

/-- So an empty report means that there is no cycle, though a report need not list all of them. -/
theorem cycles_eq_nil_iff :
    (g.findCycles excluded).cycles = [] ↔ ∀ a, ¬ TransGen (g.Uses excluded) a a := by
  constructor
  · intro none a round
    obtain ⟨names, walk, -⟩ := transGen_self_iff.1 round
    obtain ⟨c, hc, -⟩ := exists_closesOn walk
    simp [none] at hc
  · intro acyclic
    refine List.eq_nil_iff_forall_not_mem.2 fun c hc => ?_
    have walk := (elementary_of_mem_cycles hc).toClosedWalk
    obtain ⟨x, uses⟩ := walk.exists_walk
    exact acyclic x (uses.transGen walk.proper)

theorem exists_cycle_in_component {a : String} (round : TransGen (g.Uses excluded) a a) :
    ∃ c ∈ (g.findCycles excluded).cycles, ∀ n ∈ c.names, n ∈ g.component excluded a := by
  obtain ⟨names, walk, ha⟩ := transGen_self_iff.1 round
  obtain ⟨c, hc, user, used, ⟨front, closes⟩, followed⟩ := exists_closesOn walk
  have on_walk : user ∈ names := followed.subset (by simp)
  have on_cycle : user ∈ c.names := by simp [closes]
  refine ⟨c, hc, fun n hn => component_trans (walk.mem_component ha on_walk) ?_⟩
  exact (elementary_of_mem_cycles hc).toClosedWalk.mem_component on_cycle hn

/-- Every closed walk follows the closing dependency of a reported cycle. So cycles are reported
unless there are none, and in every component that has one. -/
theorem findCycles_complete (g : Graph) (excluded : NameSet) :
    let cycles := (g.findCycles excluded).cycles
    (∀ names, g.ClosedWalk excluded names → ∃ c ∈ cycles, c.ClosesOn names) ∧
    (cycles = [] ↔ ∀ a, ¬ TransGen (g.Uses excluded) a a) ∧
    ∀ a, (g.component excluded a).Nontrivial ∨ g.Uses excluded a a →
      ∃ c ∈ cycles, ∀ n ∈ c.names, n ∈ g.component excluded a := by
  intro cycles
  refine ⟨fun names walk => exists_closesOn walk, cycles_eq_nil_iff, fun a several => ?_⟩
  exact exists_cycle_in_component (transGen_self_of_nontrivial several)

theorem findCycles_complete_twoRoutes :
    twoRoutes.ClosedWalk ∅ ["A", "C", "D", "A"] ∧ (twoRoutes.component ∅ "A").Nontrivial ∧
    (∃ c ∈ (twoRoutes.findCycles ∅).cycles, c.ClosesOn ["A", "C", "D", "A"]) ∧
    ∃ c ∈ (twoRoutes.findCycles ∅).cycles, ∀ n ∈ c.names, n ∈ twoRoutes.component ∅ "A" := by
  have walk : twoRoutes.ClosedWalk ∅ ["A", "C", "D", "A"] :=
    ⟨by decide, by decide, by decide, by decide⟩
  have several : (twoRoutes.component ∅ "A").Nontrivial :=
    ⟨"A", walk.mem_component (by simp) (by simp), "C", walk.mem_component (by simp) (by simp),
      by decide⟩
  obtain ⟨closed, -, component⟩ := findCycles_complete twoRoutes ∅
  exact ⟨walk, several, closed _ walk, component "A" (.inl several)⟩

end Graph

end ChangeImpact
