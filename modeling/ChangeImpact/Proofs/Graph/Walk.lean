import ChangeImpact.Graph.Basic
import Mathlib.Data.List.Chain
import Mathlib.Data.List.Shortlex

/-!
# Walks and their order

A walk lists names each of which is related to the next one, with its two ends
given. Walks along the dependencies of a graph, from a class to the classes that
use it, are the ways in which a change can spread.

Walks are ordered by length, and those of one length name by name. That order is
what the tie-breaking of a breadth-first search comes down to: it is kept when
both walks are extended, whatever they are extended with.

## Main definitions

* `Walk`: the names lead from one to another along a relation.
* `Graph.Affects`: the relation along which a change spreads.
* `NoLater`: a walk is another one or comes before it.
-/

namespace ChangeImpact

/-- The names lead from `x` to `y`, each related to the next. -/
structure Walk (r : String → String → Prop) (x y : String) (names : List String) : Prop where
  first : names.head? = some x
  last : names.getLast? = some y
  linked : names.IsChain r

/-- What a change of the class `used` spreads to: the classes that depend on it. -/
def Graph.Affects (g : Graph) (used user : String) : Prop := used ∈ g.dependencies user

theorem Graph.affects_iff {g : Graph} {used user : String} :
    g.Affects used user ↔ user ∈ g.dependents used := by
  simp [Graph.Affects]

namespace Walk

variable {r : String → String → Prop} {x y z : String} {names : List String}

theorem single (x : String) : Walk r x x [x] := ⟨rfl, rfl, .singleton x⟩

theorem ne_nil (h : Walk r x y names) : names ≠ [] := by
  rintro rfl
  simpa using h.first

theorem snoc (h : Walk r x y names) (link : r y z) : Walk r x z (names ++ [z]) where
  first := by rw [List.head?_append_of_ne_nil _ h.ne_nil, h.first]
  last := by simp
  linked := by
    refine h.linked.append (.singleton z) ?_
    intro a ha b hb
    have ya : y = a := by simpa [h.last] using ha
    have zb : z = b := by simpa using hb
    exact ya ▸ zb ▸ link

/-- A walk ends where it starts, or it extends a walk to the name before its last one. -/
theorem eq_single_or_snoc (h : Walk r x z names) :
    (x = z ∧ names = [z]) ∨ ∃ y front, Walk r x y front ∧ r y z ∧ names = front ++ [z] := by
  obtain ⟨front, rfl⟩ := List.getLast?_eq_some_iff.1 h.last
  cases hy : front.getLast? with
  | none =>
    obtain rfl := List.getLast?_eq_none_iff.1 hy
    have xz : z = x := by simpa using h.first
    exact .inl ⟨xz.symm, rfl⟩
  | some y =>
    have nonempty : front ≠ [] := by
      rintro rfl
      simp at hy
    obtain ⟨linked, -, link⟩ := List.isChain_append.1 h.linked
    refine .inr ⟨y, front, ⟨?_, hy, linked⟩, link y hy z rfl, rfl⟩
    rw [← h.first, List.head?_append_of_ne_nil _ nonempty]

/-- Induction on a walk from its start. -/
@[elab_as_elim]
theorem snocInduction {motive : (y : String) → (names : List String) → Walk r x y names → Prop}
    (single : motive x [x] (Walk.single x))
    (snoc : ∀ {y z names} (h : Walk r x y names) (link : r y z), motive y names h →
      motive z (names ++ [z]) (h.snoc link))
    {y : String} {names : List String} (h : Walk r x y names) : motive y names h := by
  obtain ⟨n, len⟩ : ∃ n, names.length = n := ⟨_, rfl⟩
  induction n generalizing y names with
  | zero => exact (h.ne_nil (List.length_eq_zero_iff.1 len)).elim
  | succ n ih =>
    rcases h.eq_single_or_snoc with ⟨rfl, rfl⟩ | ⟨w, front, walk, link, rfl⟩
    · exact single
    · exact snoc walk link (ih walk (by simpa using len))

end Walk

/-! ## The order of walks -/

/-- Without the lengths the one could be a beginning of the other, and then what follows decides. -/
theorem lex_append_of_length_eq {p q : List String} (h : List.Lex (· < ·) p q)
    (len : p.length = q.length) (s t : List String) : List.Lex (· < ·) (p ++ s) (q ++ t) := by
  induction h with
  | nil => simp at len
  | cons _ ih => exact .cons (ih (by simpa using len))
  | rel lt => exact .rel lt

/-- Extending two walks by a name each does not change which comes first. -/
theorem shortlex_snoc {p q : List String} (h : List.Shortlex (· < ·) p q) (a b : String) :
    List.Shortlex (· < ·) (p ++ [a]) (q ++ [b]) := by
  rcases List.shortlex_def.1 h with shorter | ⟨len, lex⟩
  · exact .of_length_lt (by simpa using shorter)
  · exact .of_lex (by simpa using len) (lex_append_of_length_eq lex len _ _)

theorem shortlex_trans {p q s : List String} (h : List.Shortlex (· < ·) p q)
    (h' : List.Shortlex (· < ·) q s) : List.Shortlex (· < ·) p s := by
  rcases List.shortlex_def.1 h with shorter | ⟨len, lex⟩ <;>
    rcases List.shortlex_def.1 h' with shorter' | ⟨len', lex'⟩
  · exact .of_length_lt (shorter.trans shorter')
  · exact .of_length_lt (len' ▸ shorter)
  · exact .of_length_lt (len ▸ shorter')
  · exact .of_lex (len.trans len') (List.lt_trans lex lex')

/-- The one is the other or comes before it. -/
def NoLater (p q : List String) : Prop := p = q ∨ List.Shortlex (· < ·) p q

namespace NoLater

theorem trans {p q s : List String} (h : NoLater p q) (h' : NoLater q s) : NoLater p s := by
  rcases h with rfl | h
  · exact h'
  · rcases h' with rfl | h'
    · exact .inr h
    · exact .inr (shortlex_trans h h')

theorem snoc {p q : List String} (h : NoLater p q) (a : String) :
    NoLater (p ++ [a]) (q ++ [a]) := by
  rcases h with rfl | h
  · exact .inl rfl
  · exact .inr (shortlex_snoc h a a)

theorem length_le {p q : List String} (h : NoLater p q) : p.length ≤ q.length := by
  rcases h with rfl | h
  · exact Nat.le_refl _
  · rcases List.shortlex_def.1 h with shorter | ⟨len, -⟩
    · exact Nat.le_of_lt shorter
    · exact Nat.le_of_eq len

theorem eq_or_lex {p q : List String} (h : NoLater p q) (len : p.length = q.length) :
    p = q ∨ List.Lex (· < ·) p q :=
  h.imp_right (List.shortlex_iff_lex len).1

end NoLater

end ChangeImpact
