import ChangeImpact.Text.Affix
import ChangeImpact.Text.Blank
import Mathlib.Data.List.DropRight

/-!
# Pieces of a text

A text that is put together around a separator falls apart into the pieces of its parts.
The last piece is what stands behind the last separator.

## Main statements

* `Text.pieces_of_split`: the pieces in front of a separator, then those behind it.
* `Text.pieces_of_not_mem`: a text without separators is one piece.
* `Text.exists_pieces_eq_concat`: the last piece of a text.
* `Text.trim_trim`: a trimmed text has nothing left to trim.
-/

namespace ChangeImpact.Text

/-! ## Lists -/

/-- What stands around the last occurrence of an element. -/
theorem exists_append_cons_of_mem {α : Type} {c : α} {cs : List α} (h : c ∈ cs) :
    ∃ front back, cs = front ++ c :: back ∧ c ∉ back := by
  obtain ⟨before, after, eq, notMem⟩ := List.eq_append_cons_of_mem (List.mem_reverse.2 h)
  refine ⟨after.reverse, before.reverse, ?_, by simpa using notMem⟩
  rw [← List.reverse_reverse cs, eq]
  simp

section

variable {α : Type} [DecidableEq α]

theorem listPieces_ne_nil (c : α) (cs : List α) : listPieces c cs ≠ [] := by
  fun_induction listPieces c cs <;> simp

theorem listPieces_of_not_mem {c : α} {cs : List α} (h : c ∉ cs) :
    listPieces c cs = [cs] := by
  induction cs with
  | nil => rfl
  | cons x xs ih =>
    simp only [List.mem_cons, not_or] at h
    simp [listPieces, Ne.symm h.1, ih h.2]

theorem listPieces_append_cons (c : α) (front back : List α) :
    listPieces c (front ++ c :: back) = listPieces c front ++ listPieces c back := by
  induction front with
  | nil => simp [listPieces]
  | cons x xs ih =>
    by_cases separator : x = c
    · simp [listPieces, separator, ih]
    · obtain ⟨piece, more, first⟩ := List.exists_cons_of_ne_nil (listPieces_ne_nil c xs)
      simp [listPieces, separator, ih, first]

/-- Lines are read off a text one by one. -/
theorem listPieces_flatMap_append {c : α} {lines : List (List α)}
    (h : ∀ line ∈ lines, c ∉ line) (rest : List α) :
    listPieces c (lines.flatMap (· ++ [c]) ++ rest) = lines ++ listPieces c rest := by
  induction lines with
  | nil => rfl
  | cons line lines ih =>
    have more := ih fun other mem => h other (by simp [mem])
    have front : (line :: lines).flatMap (· ++ [c]) ++ rest
        = line ++ c :: (lines.flatMap (· ++ [c]) ++ rest) := by simp
    rw [front, listPieces_append_cons, listPieces_of_not_mem (h line (by simp)), more]
    rfl

/-- The first piece stands at the beginning, and every other one behind a separator. -/
theorem append_of_listPieces_eq_cons {c : α} {cs first : List α} {more : List (List α)}
    (split : listPieces c cs = first :: more) :
    (∃ back, cs = first ++ back) ∧
      ∀ piece ∈ more, ∃ front back, cs = front ++ c :: (piece ++ back) := by
  induction cs generalizing first more with
  | nil =>
    obtain ⟨rfl, rfl⟩ := List.cons.inj split
    simp
  | cons x xs ih =>
    obtain ⟨first', more', split'⟩ := List.exists_cons_of_ne_nil (listPieces_ne_nil c xs)
    obtain ⟨⟨back', begins⟩, behind⟩ := ih split'
    by_cases separator : x = c
    · rw [listPieces, if_pos separator, split'] at split
      obtain ⟨rfl, rfl⟩ := List.cons.inj split
      refine ⟨⟨x :: xs, rfl⟩, fun piece mem => ?_⟩
      rcases List.mem_cons.1 mem with rfl | mem
      · exact ⟨[], back', by rw [separator, begins]; rfl⟩
      · obtain ⟨front, back, rfl⟩ := behind piece mem
        exact ⟨x :: front, back, rfl⟩
    · simp only [listPieces, if_neg separator, split'] at split
      obtain ⟨rfl, rfl⟩ := List.cons.inj split
      refine ⟨⟨back', by rw [begins]; rfl⟩, fun piece mem => ?_⟩
      obtain ⟨front, back, rfl⟩ := behind piece mem
      exact ⟨x :: front, back, rfl⟩

end

/-! ## Texts -/

theorem pieces_of_split {c : Char} {s front back : String}
    (split : s.toList = front.toList ++ c :: back.toList) :
    pieces c s = pieces c front ++ pieces c back := by
  simp [pieces, split, listPieces_append_cons]

theorem pieces_of_not_mem {c : Char} {s : String} (h : c ∉ s.toList) : pieces c s = [s] := by
  simp [pieces, listPieces_of_not_mem h]

/-- Either a text has no separator, or what stands behind the last one is set off by it. -/
theorem afterLast_cases (c : Char) (s : String) :
    (c ∉ s.toList ∧ afterLast c s = s) ∨
    ∃ front : String, s.toList = front.toList ++ c :: (afterLast c s).toList := by
  by_cases h : c ∈ s.toList
  · obtain ⟨front, back, split, notMem⟩ := exists_append_cons_of_mem h
    right
    refine ⟨String.ofList front, ?_⟩
    rw [afterLast, split, listAfterLast_append_cons notMem]
    simp
  · left
    rw [afterLast, listAfterLast_of_not_mem h, String.ofList_toList]
    exact ⟨h, rfl⟩

theorem not_mem_afterLast (c : Char) (s : String) : c ∉ (afterLast c s).toList := by
  rw [afterLast, String.toList_ofList, listAfterLast, List.mem_reverse]
  intro mem
  simpa using List.mem_takeWhile_imp mem

/-- What stands behind the last separator ends as the text does. -/
theorem exists_afterLast_eq_append {c : Char} {s tail : String} (ends : endsWith s tail = true)
    (h : c ∉ tail.toList) : ∃ front, afterLast c s = front ++ tail := by
  obtain ⟨start, split⟩ := endsWith_iff.1 ends
  have all : ∀ x ∈ tail.toList.reverse, (x != c) = true := by
    intro x hx
    rw [List.mem_reverse] at hx
    simpa using fun e : x = c => h (e ▸ hx)
  refine ⟨String.ofList (listAfterLast c start), String.toList_inj.1 ?_⟩
  simp [afterLast, listAfterLast, split, List.takeWhile_append_of_pos all]

/-- The last piece of a text is what stands behind its last separator. -/
theorem exists_pieces_eq_concat (c : Char) (s : String) :
    ∃ front, pieces c s = front ++ [afterLast c s] := by
  rcases afterLast_cases c s with ⟨notMem, whole⟩ | ⟨front, split⟩
  · exact ⟨[], by rw [whole, pieces_of_not_mem notMem, List.nil_append]⟩
  · exact ⟨pieces c front, by
      rw [pieces_of_split split, pieces_of_not_mem (not_mem_afterLast c s)]⟩

/-! ## Blanks at the ends -/

/-- By the library functions for either end. -/
theorem trimChars_eq (cs : List Char) :
    trimChars cs = (cs.dropWhile isBlank).rdropWhile isBlank := rfl

theorem trimChars_trimChars (cs : List Char) : trimChars (trimChars cs) = trimChars cs := by
  -- Taking blanks away at the end leaves the first character, which is not blank.
  have begins : ((cs.dropWhile isBlank).rdropWhile isBlank).dropWhile isBlank
      = (cs.dropWhile isBlank).rdropWhile isBlank := by
    refine List.dropWhile_eq_self_iff.2 fun some => ?_
    have front := List.rdropWhile_prefix isBlank (l := cs.dropWhile isBlank)
    rw [front.getElem some]
    exact List.dropWhile_get_zero_not isBlank cs (Nat.lt_of_lt_of_le some front.length_le)
  rw [trimChars_eq, trimChars_eq, begins, List.rdropWhile_idempotent]

theorem trimChars_concat {c : Char} (blank : isBlank c = true) (cs : List Char) :
    trimChars (cs ++ [c]) = trimChars cs := by
  rw [trimChars_eq, trimChars_eq, List.dropWhile_append]
  split
  · rename_i nothing
    simp [List.isEmpty_iff.1 nothing, blank]
  · exact List.rdropWhile_concat_pos isBlank _ c blank

theorem trim_trim (s : String) : trim (trim s) = trim s := by
  simp [trim, trimChars_trimChars]

/-- A blank at the end of a text makes no difference to what is left of it. -/
theorem trim_push {c : Char} (blank : isBlank c = true) (s : String) :
    trim (s.push c) = trim s := by
  simp [trim, trimChars_concat blank]

end ChangeImpact.Text
