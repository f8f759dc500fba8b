import ChangeImpact.Graph.Cycle
import ChangeImpact.Proofs.Graph.Walk
import Mathlib.Data.Set.Basic
import Mathlib.Logic.Relation

/-!
# Closed walks

A closed walk follows dependencies between classes that are not excluded and comes
back to where it started. An elementary cycle is one that passes no class twice on
the way. Both are said here of lists of names; what one class can reach from another
is said by the closure of the relation `Graph.Uses`.

## Main definitions

* `Graph.ClosedWalk`, `Graph.Elementary`: a closed walk, and one without repetition.
* `Graph.component`: the classes that a class reaches and that reach it.
* `Cycle.ClosesWith`, `Cycle.ClosesOn`: the last dependency of a cycle, and that a walk
  follows it.
-/

namespace ChangeImpact

open Relation (ReflTransGen TransGen reflTransGen_iff_eq_or_transGen)

/-! ## Walks and what they reach -/

namespace Walk

variable {r : String → String → Prop} {x y n : String} {names : List String}

theorem reflTransGen (h : Walk r x y names) : ReflTransGen r x y := by
  induction h using snocInduction with
  | single => exact .refl
  | snoc _ link ih => exact ih.tail link

theorem transGen (h : Walk r x y names) (proper : 2 ≤ names.length) : TransGen r x y := by
  rcases h.eq_single_or_snoc with ⟨-, rfl⟩ | ⟨w, front, walk, link, -⟩
  · simp at proper
  · exact .tail' walk.reflTransGen link

/-- A walk leads to each of its names, and from there to its end. -/
theorem reflTransGen_of_mem (h : Walk r x y names) (hn : n ∈ names) :
    ReflTransGen r x n ∧ ReflTransGen r n y := by
  induction h using snocInduction with
  | single =>
    obtain rfl := List.mem_singleton.1 hn
    exact ⟨.refl, .refl⟩
  | snoc walk link ih =>
    rcases List.mem_append.1 hn with hn | hn
    · obtain ⟨there, on⟩ := ih hn
      exact ⟨there, on.tail link⟩
    · obtain rfl := List.mem_singleton.1 hn
      exact ⟨walk.reflTransGen.tail link, .refl⟩

theorem exists_of_transGen (h : TransGen r x y) : ∃ names, Walk r x y names ∧ 2 ≤ names.length := by
  induction h with
  | single link => exact ⟨_, (Walk.single x).snoc link, by simp⟩
  | tail _ link ih =>
    obtain ⟨names, walk, proper⟩ := ih
    exact ⟨_, walk.snoc link, by simp; omega⟩

end Walk

/-! ## Closed walks of a graph -/

namespace Graph

/-- A dependency between classes that are not excluded. -/
def Uses (g : Graph) (excluded : NameSet) (user used : String) : Prop :=
  used ∈ g.dependencies user ∧ user ∉ excluded ∧ used ∉ excluded

/-- The names follow dependencies between classes that are not excluded, and the last name is
the first one again. -/
structure ClosedWalk (g : Graph) (excluded : NameSet) (names : List String) : Prop where
  proper : 2 ≤ names.length
  closed : names.head? = names.getLast?
  kept : ∀ n ∈ names, n ∉ excluded
  linked : names.IsChain fun user used => used ∈ g.dependencies user

/-- A closed walk that passes no class twice. -/
structure Elementary (g : Graph) (excluded : NameSet) (c : Cycle) : Prop
    extends g.ClosedWalk excluded c.names where
  distinct : c.ring.Nodup

/-- The classes that a class reaches and that reach it. -/
def component (g : Graph) (excluded : NameSet) (a : String) : Set String :=
  { b | ReflTransGen (g.Uses excluded) a b ∧ ReflTransGen (g.Uses excluded) b a }

variable {g : Graph} {excluded : NameSet} {names : List String} {a b x : String}

namespace ClosedWalk

/-- The form in which cycles are written: a ring, and its first class again. -/
theorem eq_ring (h : g.ClosedWalk excluded names) : ∃ x rest, names = x :: rest ++ [x] := by
  obtain ⟨proper, closed, -, -⟩ := h
  cases names with
  | nil => simp at proper
  | cons x rest =>
    obtain ⟨front, split⟩ := List.getLast?_eq_some_iff.1 closed.symm
    cases front with
    | nil =>
      obtain rfl : rest = [] := by simpa using split
      simp at proper
    | cons y front =>
      obtain ⟨rfl, -⟩ := List.cons.inj split
      exact ⟨x, front, split⟩

theorem exists_walk (h : g.ClosedWalk excluded names) : ∃ x, Walk (g.Uses excluded) x x names := by
  obtain ⟨x, rest, rfl⟩ := h.eq_ring
  refine ⟨x, rfl, List.getLast?_concat, h.linked.imp_of_mem_imp fun a b ha hb link => ?_⟩
  exact ⟨link, h.kept a ha, h.kept b hb⟩

theorem of_walk (walk : Walk (g.Uses excluded) x x names) (proper : 2 ≤ names.length) :
    g.ClosedWalk excluded names where
  proper := proper
  closed := walk.first.trans walk.last.symm
  kept n hn := by
    -- Some dependency leads to each name: to the first one it is the last of the walk.
    have round := (walk.transGen proper).trans_left (walk.reflTransGen_of_mem hn).1
    obtain ⟨m, -, link⟩ := TransGen.tail'_iff.1 round
    exact link.2.2
  linked := walk.linked.imp fun _ _ link => link.1

/-- All names of a closed walk lie in one component. -/
theorem mem_component (h : g.ClosedWalk excluded names) (ha : a ∈ names) (hb : b ∈ names) :
    b ∈ g.component excluded a := by
  obtain ⟨x, walk⟩ := h.exists_walk
  obtain ⟨xa, ax⟩ := walk.reflTransGen_of_mem ha
  obtain ⟨xb, bx⟩ := walk.reflTransGen_of_mem hb
  exact ⟨ax.trans xb, bx.trans xa⟩

end ClosedWalk

/-- A class reaches itself in one step or more if and only if a closed walk starts at it. -/
theorem transGen_self_iff :
    TransGen (g.Uses excluded) a a ↔ ∃ names, g.ClosedWalk excluded names ∧ a ∈ names := by
  constructor
  · intro round
    obtain ⟨names, walk, proper⟩ := Walk.exists_of_transGen round
    exact ⟨names, .of_walk walk proper, List.mem_of_mem_head? walk.first⟩
  · rintro ⟨names, closed, ha⟩
    obtain ⟨x, walk⟩ := closed.exists_walk
    obtain ⟨xa, ax⟩ := walk.reflTransGen_of_mem ha
    exact .trans_right ax ((walk.transGen closed.proper).trans_left xa)

/-- Reaching one another carries over, so a component is the same whichever of its classes it is
named for. -/
theorem component_trans {c : String} (h : b ∈ g.component excluded a)
    (h' : c ∈ g.component excluded b) : c ∈ g.component excluded a :=
  ⟨h.1.trans h'.1, h'.2.trans h.2⟩

/-- In a component of more than one class, or with a dependency of its class on itself, every
class reaches itself. -/
theorem transGen_self_of_nontrivial
    (h : (g.component excluded a).Nontrivial ∨ g.Uses excluded a a) :
    TransGen (g.Uses excluded) a a := by
  rcases h with several | loop
  · obtain ⟨b, ⟨there, back⟩, different⟩ := several.exists_ne a
    rcases reflTransGen_iff_eq_or_transGen.1 there with same | there
    · exact absurd same different
    · exact there.trans_left back
  · exact .single loop

end Graph

/-! ## Closing dependencies -/

namespace Cycle

/-- The last dependency of the cycle, which leads back to its first class. -/
def ClosesWith (c : Cycle) (user used : String) : Prop :=
  ∃ front, c.names = front ++ [user, used]

/-- The walk follows the dependency that closes the cycle. -/
def ClosesOn (c : Cycle) (names : List String) : Prop :=
  ∃ user used, c.ClosesWith user used ∧ [user, used] <:+: names

end Cycle

/-! ## Canonical forms -/

theorem leastName_mem (x : String) (xs : List String) : leastName x xs ∈ x :: xs := by
  induction xs generalizing x with
  | nil => simp [leastName]
  | cons y ys ih =>
    have rest := ih (if y < x then y else x)
    rw [leastName, List.foldl_cons, ← leastName]
    rcases List.mem_cons.1 rest with least | later
    · rw [least]
      split <;> simp
    · exact List.mem_cons_of_mem x (List.mem_cons_of_mem y later)

theorem mem_rotateTo {name n : String} {ring : List String} :
    n ∈ rotateTo name ring ↔ n ∈ ring := by
  rw [rotateTo, List.mem_append, or_comm, ← List.mem_append, List.takeWhile_append_dropWhile]

theorem Cycle.ring_concat (x : String) (rest : List String) :
    Cycle.ring ⟨x :: rest ++ [x]⟩ = x :: rest :=
  List.dropLast_concat

/-- The closing name of a cycle is on its ring too. -/
theorem Cycle.mem_ring_iff {c : Cycle} (closed : ∃ x rest, c.names = x :: rest ++ [x])
    {n : String} : n ∈ c.ring ↔ n ∈ c.names := by
  obtain ⟨x, rest, names⟩ := closed
  rw [ring, names, List.dropLast_concat]
  simp [or_comm]

/-- A closed walk and its canonical form pass the same classes. -/
theorem Graph.ClosedWalk.mem_canonical_iff {g : Graph} {excluded : NameSet} {c : Cycle}
    (h : g.ClosedWalk excluded c.names) {n : String} :
    n ∈ c.canonical.names ↔ n ∈ c.names := by
  obtain ⟨names⟩ := c
  obtain ⟨x, rest, rfl⟩ := h.eq_ring
  have least := leastName_mem x rest
  simp only [Cycle.canonical, Cycle.ring_concat, List.mem_append, mem_rotateTo, List.mem_singleton]
  constructor
  · rintro (hn | rfl)
    · exact .inl hn
    · exact .inl least
  · rintro (hn | rfl)
    · exact .inl hn
    · exact .inl (by simp)

end ChangeImpact
