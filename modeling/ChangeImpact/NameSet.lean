/-!
# Finite sets of names

A `NameSet` is a list of names in strictly increasing order. Names are compared
code point by code point, which is also the order of their UTF-8 encodings, so
the order in which a set lists its members is the order every answer shows.

## Main definitions

* `NameSet.insert`, `NameSet.ofList`: building a set from names in any order,
  repetitions included.
* `NameSet.mem_ofList`: a set built from a list has exactly that list's members.
-/

namespace ChangeImpact

/-- Of two names neither of which precedes the other, each is the other. -/
theorem name_eq_of_not_lt {a b : String} (h : ¬ a < b) (h' : ¬ b < a) : a = b :=
  String.le_antisymm (String.not_lt.1 h') (String.not_lt.1 h)

/-- Put a name at its place in an increasing list, unless it is there already. -/
def insertSorted (x : String) : List String → List String
  | [] => [x]
  | y :: ys =>
    if x < y then x :: y :: ys
    else if y < x then y :: insertSorted x ys
    else y :: ys

theorem mem_insertSorted {x z : String} {ys : List String} :
    z ∈ insertSorted x ys ↔ z = x ∨ z ∈ ys := by
  induction ys with
  | nil => simp [insertSorted]
  | cons y ys ih =>
    rw [insertSorted]
    split
    · simp
    · split
      · simp only [List.mem_cons, ih]
        grind
      · have := name_eq_of_not_lt ‹¬ x < y› ‹¬ y < x›
        grind

theorem pairwise_insertSorted {x : String} {ys : List String} (h : ys.Pairwise (· < ·)) :
    (insertSorted x ys).Pairwise (· < ·) := by
  induction ys with
  | nil => simp [insertSorted]
  | cons y ys ih =>
    obtain ⟨below, rest⟩ := List.pairwise_cons.1 h
    rw [insertSorted]
    split
    · rename_i lt
      refine List.pairwise_cons.2 ⟨fun z hz => ?_, h⟩
      rcases List.mem_cons.1 hz with rfl | hz
      · exact lt
      · exact String.lt_trans lt (below z hz)
    · split
      · rename_i lt
        refine List.pairwise_cons.2 ⟨fun z hz => ?_, ih rest⟩
        rcases mem_insertSorted.1 hz with rfl | hz
        · exact lt
        · exact below z hz
      · exact h

/-- A finite set of names, listed in strictly increasing order. -/
structure NameSet where
  toList : List String
  sorted : toList.Pairwise (· < ·) := by simp
deriving DecidableEq

namespace NameSet

def empty : NameSet := { toList := [] }

instance : Inhabited NameSet := ⟨empty⟩

instance : EmptyCollection NameSet := ⟨empty⟩

instance : Membership String NameSet := ⟨fun s x => x ∈ s.toList⟩

instance {x : String} {s : NameSet} : Decidable (x ∈ s) :=
  inferInstanceAs (Decidable (x ∈ s.toList))

theorem mem_def {x : String} {s : NameSet} : x ∈ s ↔ x ∈ s.toList := Iff.rfl

@[simp] theorem not_mem_empty {x : String} : ¬ x ∈ (∅ : NameSet) := by
  simp [mem_def, EmptyCollection.emptyCollection, empty]

def contains (s : NameSet) (x : String) : Bool := decide (x ∈ s)

@[simp] theorem contains_iff {s : NameSet} {x : String} : s.contains x = true ↔ x ∈ s := by
  simp [contains]

def isEmpty (s : NameSet) : Bool := s.toList.isEmpty

def size (s : NameSet) : Nat := s.toList.length

def insert (s : NameSet) (x : String) : NameSet where
  toList := insertSorted x s.toList
  sorted := pairwise_insertSorted s.sorted

@[simp] theorem mem_insert {s : NameSet} {x z : String} : z ∈ s.insert x ↔ z = x ∨ z ∈ s :=
  mem_insertSorted

/-- The set of the names in a list, in whatever order and however often they occur. -/
def ofList (xs : List String) : NameSet := xs.foldl insert ∅

theorem mem_foldl_insert {xs : List String} {s : NameSet} {z : String} :
    z ∈ xs.foldl insert s ↔ z ∈ xs ∨ z ∈ s := by
  induction xs generalizing s with
  | nil => simp
  | cons x xs ih => simp only [List.foldl_cons, ih, mem_insert, List.mem_cons]; grind

@[simp] theorem mem_ofList {xs : List String} {z : String} : z ∈ ofList xs ↔ z ∈ xs := by
  simp [ofList, mem_foldl_insert]

/-- Members do not repeat. -/
theorem nodup (s : NameSet) : s.toList.Nodup := by
  refine List.Pairwise.imp ?_ s.sorted
  rintro a b lt rfl
  exact String.lt_irrefl a lt

def filter (s : NameSet) (p : String → Bool) : NameSet where
  toList := s.toList.filter p
  sorted := s.sorted.filter p

@[simp] theorem mem_filter {s : NameSet} {p : String → Bool} {z : String} :
    z ∈ s.filter p ↔ z ∈ s ∧ p z = true := by
  simp [mem_def, filter]

end NameSet

end ChangeImpact
