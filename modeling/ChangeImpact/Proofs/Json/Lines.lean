import ChangeImpact.Proofs.Json.RoundTrip
import Mathlib.Data.List.Chain

/-!
# The lines of a written value

In the form with one element a line, every line but the first begins with a blank or with
the bracket that closes the value. Strings cannot change that, because no line break and
no other control character is written inside them.

## Main definitions

* `Json.Laid`: what holds of every part of a written value.

## Main statements

* `Json.WholeNumbers.laid_prettyChars`: it holds of the value as a whole.
-/

namespace ChangeImpact.Json

/-! ## Parts of a written value -/

/-- Characters in which every line but the first begins with a blank or a closing bracket, in which
something stands behind every line break, and which have no other control characters. -/
structure Laid (cs : List Char) : Prop where
  begins : cs.IsChain fun a b => a = '\n' → b ∈ [' ', ']', '\x7d']
  ends : ∀ c ∈ cs.getLast?, c ≠ '\n'
  plain : ∀ c ∈ cs, c = '\n' ∨ 32 ≤ c.toNat

namespace Laid

/-- The front does not end with a line break, so no line begins where the two meet. -/
theorem append {front back : List Char} (left : Laid front) (right : Laid back) :
    Laid (front ++ back) where
  begins := left.begins.append right.begins fun a last _ _ newline =>
    absurd newline (left.ends a last)
  ends c last := by
    rw [List.getLast?_append] at last
    cases h : back.getLast? with
    | none => exact left.ends c (by simpa [h] using last)
    | some d => exact right.ends c (by simpa [h] using last)
  plain c mem := (List.mem_append.1 mem).elim (left.plain c) (right.plain c)

theorem of_plain {cs : List Char} (plain : ∀ c ∈ cs, 32 ≤ c.toNat) : Laid cs := by
  have noBreak : ∀ c ∈ cs, c ≠ '\n' := by
    rintro c mem rfl
    exact absurd (plain _ mem) (by decide)
  refine ⟨?_, fun c last => noBreak c (List.mem_of_getLast? last), fun c mem => .inr (plain c mem)⟩
  refine List.isChain_iff_forall_rel_of_append_cons_cons.2 ?_
  rintro a b front back rfl newline
  exact absurd newline (noBreak a (by simp))

theorem cons {c : Char} {cs : List Char} (plain : 32 ≤ c.toNat) (rest : Laid cs) :
    Laid (c :: cs) := by
  have first : Laid [c] := of_plain (by simpa using plain)
  exact first.append rest

/-- A line break in front of a blank or a closing bracket. -/
theorem newline_cons {c : Char} {cs : List Char} (rest : Laid (c :: cs))
    (begin : c ∈ [' ', ']', '\x7d']) : Laid ('\n' :: c :: cs) where
  begins := rest.begins.cons_cons fun _ => begin
  ends := rest.ends
  plain d mem := (List.mem_cons.1 mem).elim .inl (rest.plain d)

theorem newline_succ (depth : Nat) : Laid (newline (depth + 1)) := by
  have blanks : Laid (' ' :: List.replicate (2 * depth + 1) ' ') :=
    of_plain (by simp [List.mem_replicate])
  exact blanks.newline_cons (by simp)

/-- The bracket that closes a value is on a line of its own. -/
theorem closing (depth : Nat) {c : Char} (bracket : c ∈ [']', '\x7d']) :
    Laid (newline depth ++ [c]) := by
  have single : Laid [c] := by
    simp only [List.mem_cons, List.not_mem_nil, or_false] at bracket
    rcases bracket with rfl | rfl <;> exact of_plain (by simp)
  cases depth with
  | zero => exact single.newline_cons (List.mem_cons_of_mem ' ' bracket)
  | succ depth => exact (newline_succ depth).append single

end Laid

/-! ## Strings -/

/-- No control character is left in a written string. -/
theorem plain_escape (cs : List Char) : ∀ c ∈ escape cs, 32 ≤ c.toNat := by
  intro c mem
  obtain ⟨d, -, mem⟩ := List.mem_flatMap.1 mem
  have hex : ∀ n < 16, 32 ≤ (hexDigit n).toNat := by decide
  rcases escapeChar_cases d with ⟨letter, eq, -, meaning⟩ | ⟨control, eq⟩ | ⟨eq, -, -, high⟩
  · have visible : 32 ≤ letter.toNat := by
      unfold unescapeLetter? at meaning
      split_ifs at meaning <;> subst_vars <;> decide
    simp only [eq, List.mem_cons, List.not_mem_nil, or_false] at mem
    rcases mem with rfl | rfl
    · decide
    · exact visible
  · have high := hex (d.toNat / 16) (by omega)
    have low := hex (d.toNat % 16) (by omega)
    simp only [eq, List.mem_cons, List.not_mem_nil, or_false] at mem
    rcases mem with rfl | rfl | rfl | rfl | rfl | rfl
    · decide
    · decide
    · decide
    · decide
    · exact high
    · exact low
  · rw [eq, List.mem_singleton] at mem
    rw [mem]
    omega

theorem laid_quote (s : String) : Laid (quote s) := by
  refine .of_plain fun c mem => ?_
  simp only [quote, List.cons_append, List.mem_cons, List.mem_append, List.not_mem_nil,
    or_false] at mem
  rcases mem with rfl | mem | rfl
  · decide
  · exact plain_escape _ c mem
  · decide

/-! ## Values -/

/-- One container deep at least, so that every further line begins with a blank. -/
theorem laid_prettyItems {depth : Nat} {xs : List Json}
    (each : ∀ x ∈ xs, Laid (x.prettyChars (depth + 1))) : Laid (prettyItems (depth + 1) xs) := by
  induction xs with
  | nil => exact .of_plain (by simp [prettyItems])
  | cons x xs ih =>
    rw [prettyItems]
    exact (((Laid.newline_succ depth).cons (by decide)).append (each x (by simp))).append
      (ih fun y hy => each y (by simp [hy]))

theorem laid_prettyFields {depth : Nat} {fields : List (String × Json)}
    (each : ∀ f ∈ fields, Laid (f.2.prettyChars (depth + 1))) :
    Laid (prettyFields (depth + 1) fields) := by
  induction fields with
  | nil => exact .of_plain (by simp [prettyFields])
  | cons f fields ih =>
    have colon : Laid [':', ' '] := .of_plain (by simp)
    rw [prettyFields]
    exact (((((Laid.newline_succ depth).cons (by decide)).append (laid_quote f.1)).append
      colon).append (each f (by simp))).append (ih fun g hg => each g (by simp [hg]))

/-- By induction on the value. Line breaks stand between elements only, for those in strings are
escaped. -/
theorem WholeNumbers.laid_prettyChars {j : Json} (h : j.WholeNumbers) (depth : Nat) :
    Laid (j.prettyChars depth) := by
  induction h generalizing depth with
  | null => exact .of_plain (by simp [prettyChars])
  | bool b => cases b <;> exact .of_plain (by simp [prettyChars])
  | nat n =>
    refine .of_plain fun c mem => ?_
    rw [Json.nat, prettyChars, toList_toString_nat] at mem
    have digit : c.isDigit = true := isDigit_of_mem_toDigits mem
    exact Nat.le_trans (by decide : 32 ≤ '0'.toNat) (Char.isDigit_iff_toNat.1 digit).1
  | string s => exact laid_quote s
  | @array items _ ih =>
    cases items with
    | nil => exact .of_plain (by simp [prettyChars])
    | cons x xs =>
      have opening := (Laid.newline_succ depth).cons (c := '[') (by decide)
      have first := ih x (by simp) (depth + 1)
      have more : Laid (prettyItems (depth + 1) xs) :=
        laid_prettyItems fun y hy => ih y (by simp [hy]) (depth + 1)
      have closing := Laid.closing depth (c := ']') (by simp)
      simpa [prettyChars] using ((opening.append first).append more).append closing
  | @object fields _ ih =>
    cases fields with
    | nil => exact .of_plain (by simp [prettyChars])
    | cons f fields =>
      have opening := (Laid.newline_succ depth).cons (c := '\x7b') (by decide)
      have colon : Laid [':', ' '] := .of_plain (by simp)
      have first := ((laid_quote f.1).append colon).append (ih f (by simp) (depth + 1))
      have more : Laid (prettyFields (depth + 1) fields) :=
        laid_prettyFields fun g hg => ih g (by simp [hg]) (depth + 1)
      have closing := Laid.closing depth (c := '\x7d') (by simp)
      simpa [prettyChars] using ((opening.append first).append more).append closing

end ChangeImpact.Json
