import ChangeImpact.Proofs.Graph.CycleSearch
import ChangeImpact.Proofs.NameOrder
import Mathlib.Data.List.Rotate

/-!
# The canonical form of a cycle

A ring of classes is written down from some class on, and the same ring can be written
down from each of its classes. The canonical form begins at the least name. Where no name
occurs twice there is one place to begin, so two cycles have the same canonical form if
and only if they are the same ring.

## Main definitions

* `Cycle.Simple`: the names come back to the first one and pass no other twice.
* `Cycle.steps`: the consecutive pairs of a cycle.

## Main statements

* `Cycle.exists_canonical_eq`: the canonical form is a rotation that begins at the least
  name.
* `Cycle.Simple.canonical_eq_iff`: canonical forms are equal if and only if the rings are
  rotations of each other.
* `Cycle.canonical_decides_ring`: this, and what the canonical form keeps of a cycle.
-/

namespace ChangeImpact

/-! ## The least name -/

theorem leastName_le {x n : String} {xs : List String} (hn : n ∈ x :: xs) :
    leastName x xs ≤ n := by
  induction xs generalizing x n with
  | nil =>
    obtain rfl := List.mem_singleton.1 hn
    exact String.le_refl n
  | cons y ys ih =>
    rw [leastName, List.foldl_cons, ← leastName]
    by_cases yx : y < x
    · rw [if_pos yx]
      rcases List.mem_cons.1 hn with rfl | hn
      · exact String.le_trans (ih (List.mem_cons_self ..)) (String.not_lt.1 (String.lt_asymm yx))
      · exact ih hn
    · rw [if_neg yx]
      rcases List.mem_cons.1 hn with rfl | hn
      · exact ih (List.mem_cons_self ..)
      · rcases List.mem_cons.1 hn with rfl | hn
        · exact String.le_trans (ih (List.mem_cons_self ..)) (String.not_lt.1 yx)
        · exact ih (List.mem_cons_of_mem _ hn)

/-! ## Rotations -/

/-- Entering a ring elsewhere turns it, and leaves it as it is if the name is not on it. -/
theorem isRotated_rotateTo (name : String) (ring : List String) :
    ring.IsRotated (rotateTo name ring) := by
  have rotated : (ring.takeWhile (· != name) ++ ring.dropWhile (· != name)).IsRotated
      (rotateTo name ring) := List.isRotated_append
  rwa [List.takeWhile_append_dropWhile] at rotated

theorem exists_rotateTo_eq_cons {name : String} {ring : List String} (h : name ∈ ring) :
    ∃ rest, rotateTo name ring = name :: rest := by
  obtain ⟨front, back, rfl, fresh⟩ := List.eq_append_cons_of_mem h
  have others : ∀ n ∈ front, (n != name) = true := by
    intro n hn
    exact bne_iff_ne.2 fun same => fresh (same ▸ hn)
  refine ⟨back ++ front, ?_⟩
  simp [rotateTo, List.dropWhile_append_of_pos others, List.takeWhile_append_of_pos others]

/-- Of the rotations of a list without repetition, no two begin with the same name. -/
theorem eq_of_isRotated_of_head?_eq {xs ys : List String} (distinct : xs.Nodup)
    (rotated : xs.IsRotated ys) (first : xs.head? = ys.head?) : xs = ys := by
  obtain ⟨k, rfl⟩ := rotated
  rcases xs.eq_nil_or_concat with rfl | ⟨front, last, split⟩
  · simp
  · have nonempty : 0 < xs.length := by simp [split]
    rw [← List.rotate_mod] at first ⊢
    rw [List.head?_rotate (Nat.mod_lt k nonempty), List.head?_eq_getElem?] at first
    rw [← (List.getElem?_inj nonempty distinct).1 first, List.rotate_zero]

namespace Cycle

/-- The names come back to the first one, and the ring passes none of them twice. -/
structure Simple (c : Cycle) : Prop where
  closed : ∃ x rest, c.names = x :: rest ++ [x]
  distinct : c.ring.Nodup

/-- The steps around the cycle, each from a class to the next one. -/
def steps (c : Cycle) : List (String × String) := c.names.zip c.names.tail

/-! ## The canonical form as a rotation -/

/-- The canonical form of a cycle of one class or more is its ring entered at a name that is
not above any other, and closed with that name. -/
theorem exists_canonical_eq {c : Cycle} (nonempty : c.ring ≠ []) :
    ∃ least rest, c.canonical = ⟨least :: rest ++ [least]⟩ ∧
      c.ring.IsRotated (least :: rest) ∧ ∀ n ∈ c.ring, least ≤ n := by
  obtain ⟨x, xs, ring⟩ := List.exists_cons_of_ne_nil nonempty
  obtain ⟨rest, begins⟩ := exists_rotateTo_eq_cons (leastName_mem x xs)
  refine ⟨leastName x xs, rest, ?_, ?_, ?_⟩
  · simp [canonical, ring, begins]
  · rw [ring, ← begins]
    exact isRotated_rotateTo _ _
  · rw [ring]
    exact fun n hn => leastName_le hn

/-- The steps are the ring paired with itself one further, so that turning the ring turns them. -/
theorem steps_eq {c : Cycle} (closed : ∃ x rest, c.names = x :: rest ++ [x]) :
    c.steps = c.ring.zip (c.ring.rotate 1) := by
  obtain ⟨names⟩ := c
  obtain ⟨x, rest, rfl⟩ := closed
  rw [ring_concat]
  -- The closing name begins no step.
  have pairs : (x :: rest ++ [x]).zip (rest ++ [x] ++ [])
      = (x :: rest).zip (rest ++ [x]) ++ [x].zip [] := List.zip_append (by simp)
  simpa [steps] using pairs

theorem isRotated_zip_rotate {xs ys : List String} (rotated : xs.IsRotated ys) :
    (xs.zip (xs.rotate 1)).IsRotated (ys.zip (ys.rotate 1)) := by
  obtain ⟨k, rfl⟩ := rotated
  refine ⟨k, (List.zipWith_rotate_distrib Prod.mk xs (xs.rotate 1) k (by simp)).trans ?_⟩
  rw [List.rotate_rotate, List.rotate_rotate, Nat.add_comm]
  rfl

namespace Simple

variable {r s : Cycle}

theorem ring_ne_nil (h : r.Simple) : r.ring ≠ [] := by
  obtain ⟨x, rest, names⟩ := h.closed
  rw [ring, names, List.dropLast_concat]
  exact List.cons_ne_nil x rest

/-- Entered elsewhere, the ring of a cycle without repetition makes a cycle without repetition. -/
theorem of_isRotated (h : r.Simple) {x : String} {rest : List String}
    (rotated : r.ring.IsRotated (x :: rest)) : Simple ⟨x :: rest ++ [x]⟩ where
  closed := ⟨x, rest, rfl⟩
  distinct := by
    rw [ring_concat]
    exact rotated.nodup_iff.1 h.distinct

/-- A ring that passes no class twice holds its least name once, and so can be entered there in one
way only. -/
theorem canonical_eq_iff (hr : r.Simple) (hs : s.Simple) :
    r.canonical = s.canonical ↔ r.ring.IsRotated s.ring := by
  obtain ⟨m, p, formR, rotatedR, leastR⟩ := exists_canonical_eq hr.ring_ne_nil
  obtain ⟨n, q, formS, rotatedS, leastS⟩ := exists_canonical_eq hs.ring_ne_nil
  rw [formR, formS]
  constructor
  · intro same
    have rings := congrArg ring same
    rw [ring_concat, ring_concat] at rings
    rw [rings] at rotatedR
    exact rotatedR.trans rotatedS.symm
  · intro rotated
    -- Both begin at the least name of the same ring, and there it is entered once.
    have onR : n ∈ r.ring := by
      rw [rotated.mem_iff, rotatedS.mem_iff]
      exact List.mem_cons_self ..
    have onS : m ∈ s.ring := by
      rw [← rotated.mem_iff, rotatedR.mem_iff]
      exact List.mem_cons_self ..
    obtain rfl : m = n := String.le_antisymm (leastR n onR) (leastS m onS)
    have distinct : (m :: p).Nodup := rotatedR.nodup_iff.1 hr.distinct
    have turned : (m :: p).IsRotated (m :: q) := rotatedR.symm.trans (rotated.trans rotatedS)
    rw [eq_of_isRotated_of_head?_eq distinct turned rfl]

end Simple

end Cycle

namespace Graph

theorem Elementary.simple {g : Graph} {excluded : NameSet} {c : Cycle}
    (h : g.Elementary excluded c) : c.Simple :=
  ⟨h.eq_ring, h.distinct⟩

end Graph

namespace Cycle

/-- All reported cycles are simple. Of simple cycles, two have the same canonical form if and only
if their rings are rotations of each other. The canonical form of a simple cycle is a simple cycle
again: its ring entered at the least name, with the same steps in the same cyclic order; and it is
its own canonical form. -/
theorem canonical_decides_ring :
    (∀ (g : Graph) (excluded : NameSet), ∀ c ∈ (g.findCycles excluded).cycles, c.Simple) ∧
    ∀ r s : Cycle, r.Simple → s.Simple →
      (r.canonical = s.canonical ↔ r.ring.IsRotated s.ring) ∧
      r.canonical.Simple ∧ r.ring.IsRotated r.canonical.ring ∧
      (∃ least ∈ r.names, (∀ n ∈ r.names, n = least ∨ BytesBefore least n) ∧
        r.canonical.names.head? = some least ∧ r.canonical.names.getLast? = some least) ∧
      r.steps.IsRotated r.canonical.steps ∧ r.canonical.canonical = r.canonical := by
  refine ⟨fun g excluded c hc => (Graph.elementary_of_mem_cycles hc).simple, ?_⟩
  intro r s hr hs
  obtain ⟨least, rest, form, rotated, below⟩ := exists_canonical_eq hr.ring_ne_nil
  have simple : r.canonical.Simple := form ▸ hr.of_isRotated rotated
  have turned : r.ring.IsRotated r.canonical.ring := by
    rw [form, ring_concat]
    exact rotated
  refine ⟨hr.canonical_eq_iff hs, simple, turned, ⟨least, ?_, ?_, ?_, ?_⟩, ?_, ?_⟩
  · rw [← mem_ring_iff hr.closed, rotated.mem_iff]
    exact List.mem_cons_self ..
  · intro n hn
    rw [bytesBefore_eq]
    have notBelow := String.not_lt.2 (below n ((mem_ring_iff hr.closed).2 hn))
    by_cases above : least < n
    · exact .inr above
    · exact .inl (name_eq_of_not_lt notBelow above)
  · rw [form]
    rfl
  · rw [form]
    exact List.getLast?_concat
  · rw [steps_eq hr.closed, steps_eq simple.closed]
    exact isRotated_zip_rotate turned
  · exact (simple.canonical_eq_iff hr).2 turned.symm

/-- One ring of three classes, entered at two of them. -/
theorem canonical_decides_ring_threeClasses :
    Simple ⟨["B", "C", "A", "B"]⟩ ∧ Simple ⟨["C", "A", "B", "C"]⟩ ∧
    canonical ⟨["B", "C", "A", "B"]⟩ = canonical ⟨["C", "A", "B", "C"]⟩ := by
  have atB : Simple ⟨["B", "C", "A", "B"]⟩ := ⟨⟨"B", ["C", "A"], rfl⟩, by decide⟩
  have atC : Simple ⟨["C", "A", "B", "C"]⟩ := ⟨⟨"C", ["A", "B"], rfl⟩, by decide⟩
  exact ⟨atB, atC, (canonical_decides_ring.2 _ _ atB atC).1.2 ⟨1, rfl⟩⟩

end Cycle

end ChangeImpact
