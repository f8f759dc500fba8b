import ChangeImpact.Text.Lossy

/-!
# Raw texts

A file system knows its entries by bytes. Mostly these are the UTF-8 of a text, but nothing
sees to it: a name may hold bytes that are part of no character. Raw texts are compared
byte by byte.

## Main definitions

* `RawText`, `RawText.ofText`: bytes, and those of a text.
* `RawText.text?`, `RawText.shown`: the text that the bytes are, and what is shown of them.
-/

namespace ChangeImpact

def Text.bytes (s : String) : List UInt8 := s.toUTF8.data.toList

/-- A name or a path as a file system keeps it. -/
structure RawText where
  bytes : List UInt8
deriving DecidableEq, Inhabited

namespace RawText

@[coe] def ofText (s : String) : RawText := ⟨Text.bytes s⟩

instance coeText : Coe String RawText := ⟨ofText⟩

instance coeTexts : Coe (List String) (List RawText) := ⟨List.map ofText⟩

instance bytesLT : LT RawText := ⟨fun a b => a.bytes < b.bytes⟩

instance decidableLT : DecidableLT RawText :=
  fun a b => inferInstanceAs (Decidable (a.bytes < b.bytes))

/-- The text whose UTF-8 the bytes are, if they are UTF-8. -/
def text? (r : RawText) : Option String := String.fromUTF8? r.bytes.toByteArray

/-- The text that is shown in messages. Bytes that are no part of a text are replaced in it. -/
def shown (r : RawText) : String := r.text?.getD (String.ofList (Text.decodeLossy r.bytes))

theorem toByteArray_bytes (s : String) : (Text.bytes s).toByteArray = s.toByteArray := by
  apply ByteArray.ext
  simp [Text.bytes]

theorem text?_ofText (s : String) : (ofText s).text? = some s := by
  rw [text?, ofText, toByteArray_bytes, String.fromUTF8?, dif_pos s.isValidUTF8]
  rfl

theorem eq_ofText_of_text? {r : RawText} {s : String} (h : r.text? = some s) : r = s := by
  unfold text? String.fromUTF8? at h
  split at h
  · obtain rfl := Option.some.inj h
    cases r
    simp [ofText, Text.bytes, String.fromUTF8]
  · cases h

theorem text?_eq_some_iff {r : RawText} {s : String} : r.text? = some s ↔ r = s :=
  ⟨eq_ofText_of_text?, fun h => h ▸ text?_ofText s⟩

@[simp] theorem ofText_inj {s t : String} : ofText s = ofText t ↔ s = t := by
  refine ⟨fun same => ?_, congrArg ofText⟩
  have decoded := text?_ofText t
  rw [← same, text?_ofText] at decoded
  exact Option.some.inj decoded

@[simp] theorem shown_ofText (s : String) : (ofText s).shown = s := by
  rw [shown, text?_ofText, Option.getD_some]

end RawText

end ChangeImpact
