import ChangeImpact.NameSet
import ChangeImpact.Text.Sink
import Mathlib.Data.List.Lex

/-!
# The order of names is the order of their bytes

Names are compared code point by code point. UTF-8 was made so that comparing the
encodings byte by byte gives the same answer: a greater code point has a greater
byte at the first place where the two encodings differ, and no encoding begins
another one.

## Main statements

* `encodeChar_append_lt`: the encodings of two characters decide the order of
  whatever begins with them.
* `bytes_lt_iff`, `bytesBefore_eq`: two names are ordered as their bytes are.
* `RawText.isLinearOrder`: names that are no texts are ordered by their bytes as well.
-/

namespace ChangeImpact

/-! ## Characters -/

theorem toNat_val_lt (c : Char) : c.val.toNat < 0x110000 := by
  rcases c.valid with h | h
  · exact Nat.lt_trans h (by decide)
  · exact h.2

/-- One byte further into a comparison: the greater byte wins, and a tie leaves the matter to
what follows. -/
theorem cons_byte_lt {a b : Nat} {s t : List UInt8} (hb : b < 256) (le : a ≤ b)
    (tie : a = b → s < t) : UInt8.ofNat a :: s < UInt8.ofNat b :: t := by
  rw [List.cons_lt_cons_iff]
  rcases Nat.lt_or_eq_of_le le with lt | eq
  · left
    rw [UInt8.lt_iff_toNat_lt, UInt8.toNat_ofNat_of_lt' hb,
      UInt8.toNat_ofNat_of_lt' (Nat.lt_trans lt hb)]
    exact lt
  · exact .inr ⟨by rw [eq], tie eq⟩

/-- The encodings of two characters differ at some byte, and there the greater character has
the greater byte; so it does not matter what follows them. -/
theorem encodeChar_append_lt {c d : Char} (h : c < d) (s t : List UInt8) :
    String.utf8EncodeChar c ++ s < String.utf8EncodeChar d ++ t := by
  have lt : c.val.toNat < d.val.toNat := h
  have bound := toNat_val_lt d
  simp only [String.utf8EncodeChar]
  generalize c.val.toNat = m at *
  generalize d.val.toNat = n at *
  -- One case for each pair of lengths. Ties at all bytes would make the code points equal.
  split_ifs <;> simp only [List.cons_append, List.nil_append] <;>
    (repeat refine cons_byte_lt (by omega) (by omega) fun _ => ?_) <;> omega

/-! ## Names -/

/-- By induction on the order of the lists: the characters in which they first differ decide. -/
theorem flatMap_encodeChar_lt {xs ys : List Char} (h : xs < ys) :
    xs.flatMap String.utf8EncodeChar < ys.flatMap String.utf8EncodeChar := by
  induction h with
  | @nil y ys =>
    obtain ⟨b, bs, e⟩ := List.exists_cons_of_ne_nil (String.utf8EncodeChar_ne_nil (c := y))
    rw [List.flatMap_cons, e]
    exact List.Lex.nil
  | cons _ ih =>
    simp only [List.flatMap_cons]
    exact List.Lex.append_left _ ih _
  | rel lt =>
    simp only [List.flatMap_cons]
    exact encodeChar_append_lt lt _ _

theorem bytes_eq_flatMap (s : String) :
    Text.bytes s = s.toList.flatMap String.utf8EncodeChar := by
  have encoded : s.toByteArray = s.toList.utf8Encode := by
    rw [← String.toByteArray_ofList, String.ofList_toList]
  rw [Text.bytes, String.toUTF8_eq_toByteArray, encoded, List.utf8Encode,
    List.toList_data_toByteArray]

theorem bytes_lt_of_lt {a b : String} (h : a < b) : Text.bytes a < Text.bytes b := by
  rw [bytes_eq_flatMap, bytes_eq_flatMap]
  exact flatMap_encodeChar_lt h

/-- Comparing names code point by code point is comparing their bytes. -/
theorem bytes_lt_iff {a b : String} : Text.bytes a < Text.bytes b ↔ a < b := by
  refine ⟨fun h => ?_, bytes_lt_of_lt⟩
  by_contra notLt
  by_cases lt : b < a
  · exact List.lt_asymm h (bytes_lt_of_lt lt)
  · rw [name_eq_of_not_lt notLt lt] at h
    exact List.lt_irrefl _ h

/-- The one name comes before the other when their bytes are compared. -/
def BytesBefore (a b : String) : Prop := Text.bytes a < Text.bytes b

/-- So nothing changes if names are compared byte by byte. -/
theorem bytesBefore_eq : BytesBefore = (· < ·) := by
  funext a b
  exact propext bytes_lt_iff

/-! ## Raw names -/

namespace RawText

instance bytesLE : LE RawText := ⟨fun a b => ¬ b < a⟩

instance isLinearOrder : Std.IsLinearOrder RawText where
  le_refl a := List.lt_irrefl a.bytes
  le_trans a b c := @List.le_trans UInt8 _ _ _ _ a.bytes b.bytes c.bytes
  le_antisymm a b hab hba := by
    cases a
    cases b
    exact congrArg mk (List.le_antisymm hab hba)
  le_total a b := List.le_total a.bytes b.bytes

instance lawfulOrderLT : Std.LawfulOrderLT RawText where
  lt_iff a b := by
    change a < b ↔ ¬ b < a ∧ ¬ ¬ a < b
    exact ⟨fun h => ⟨List.lt_asymm h, not_not_intro h⟩, fun h => not_not.1 h.2⟩

end RawText

end ChangeImpact
