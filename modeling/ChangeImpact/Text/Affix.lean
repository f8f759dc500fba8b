/-!
# Beginnings and ends of texts

Small questions about how a text begins or ends, answered on its characters.
-/

namespace ChangeImpact.Text

def startsWith (s start : String) : Bool := start.toList.isPrefixOf s.toList

def endsWith (s tail : String) : Bool := tail.toList.isSuffixOf s.toList

theorem startsWith_iff {s start : String} :
    startsWith s start = true ↔ ∃ rest, s.toList = start.toList ++ rest := by
  simp only [startsWith, List.isPrefixOf_iff_prefix]
  exact ⟨fun ⟨r, h⟩ => ⟨r, h.symm⟩, fun ⟨r, h⟩ => ⟨r, h.symm⟩⟩

theorem endsWith_iff {s tail : String} :
    endsWith s tail = true ↔ ∃ start, s.toList = start ++ tail.toList := by
  simp only [endsWith, List.isSuffixOf_iff_suffix]
  exact ⟨fun ⟨r, h⟩ => ⟨r, h.symm⟩, fun ⟨r, h⟩ => ⟨r, h.symm⟩⟩

/-- What stands before a given end, if the text has that end. -/
def dropEnd? (s tail : String) : Option String :=
  if endsWith s tail then
    some (String.ofList (s.toList.take (s.toList.length - tail.toList.length)))
  else none

theorem dropEnd?_eq_some_iff {s tail start : String} :
    dropEnd? s tail = some start ↔ s.toList = start.toList ++ tail.toList := by
  unfold dropEnd?
  split
  · obtain ⟨before, h⟩ := endsWith_iff.1 ‹_›
    simp only [h, Option.some.injEq, List.length_append, Nat.add_sub_cancel, List.take_left,
      List.append_cancel_right_eq]
    constructor
    · rintro rfl; simp
    · rintro rfl; simp
  · simp only [reduceCtorEq, false_iff]
    intro h
    exact ‹¬ _› (endsWith_iff.2 ⟨_, h⟩)

section

variable {α : Type} [DecidableEq α]

/-- What stands in a list after the last occurrence of `c`, or all of it if there is none. -/
def listAfterLast (c : α) (cs : List α) : List α := (cs.reverse.takeWhile (· != c)).reverse

theorem listAfterLast_append_cons {c : α} {as bs : List α} (h : c ∉ bs) :
    listAfterLast c (as ++ c :: bs) = bs := by
  have all : ∀ x ∈ bs.reverse, (x != c) = true := by
    intro x hx
    simp only [List.mem_reverse] at hx
    simpa using fun e : x = c => h (e ▸ hx)
  simp [listAfterLast, List.takeWhile_append_of_pos all]

theorem listAfterLast_of_not_mem {c : α} {cs : List α} (h : c ∉ cs) :
    listAfterLast c cs = cs := by
  have all : ∀ x ∈ cs.reverse, (x != c) = true := by
    intro x hx
    simp only [List.mem_reverse] at hx
    simpa using fun e : x = c => h (e ▸ hx)
  have keep : (cs.reverse ++ []).takeWhile (· != c) = cs.reverse ++ [].takeWhile (· != c) :=
    List.takeWhile_append_of_pos all
  simp only [List.append_nil, List.takeWhile_nil] at keep
  simp [listAfterLast, keep]

end

def afterLast (c : Char) (s : String) : String := String.ofList (listAfterLast c s.toList)

end ChangeImpact.Text
