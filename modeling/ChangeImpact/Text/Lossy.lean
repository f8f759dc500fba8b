/-!
# Text from bytes that may be damaged

Bytes that are no part of any character are replaced by the replacement character, one
for each longest beginning of a character that is not continued.
-/

namespace ChangeImpact.Text

/-- The character that stands for damaged bytes. -/
def replacement : Char := .ofNat 0xFFFD

/-- What the first byte of a character of several bytes tells: how many follow, between which
bounds the next one lies, and the bits it contributes itself. -/
structure Lead where
  following : Nat
  least : Nat
  most : Nat
  bits : Nat

def Lead.ofByte? (b : Nat) : Option Lead :=
  if 0xC2 ≤ b && b ≤ 0xDF then some ⟨1, 0x80, 0xBF, b - 0xC0⟩
  else if b = 0xE0 then some ⟨2, 0xA0, 0xBF, 0⟩
  else if b = 0xED then some ⟨2, 0x80, 0x9F, 0xD⟩
  else if 0xE1 ≤ b && b ≤ 0xEF then some ⟨2, 0x80, 0xBF, b - 0xE0⟩
  else if b = 0xF0 then some ⟨3, 0x90, 0xBF, 0⟩
  else if 0xF1 ≤ b && b ≤ 0xF3 then some ⟨3, 0x80, 0xBF, b - 0xF0⟩
  else if b = 0xF4 then some ⟨3, 0x80, 0x8F, 4⟩
  else none

/-- The character of which some bits are known, with so many bytes to come, and what follows
it. -/
def continued : (following least most bits : Nat) → (bytes : List UInt8) → Char × List UInt8
  | 0, _, _, bits, bytes => (.ofNat bits, bytes)
  | _ + 1, _, _, _, [] => (replacement, [])
  | following + 1, least, most, bits, b :: rest =>
    if least ≤ b.toNat && b.toNat ≤ most then
      continued following 0x80 0xBF (bits * 64 + (b.toNat - 0x80)) rest
    else (replacement, b :: rest)

theorem length_continued_le (following least most bits : Nat) (bytes : List UInt8) :
    (continued following least most bits bytes).2.length ≤ bytes.length := by
  fun_induction continued following least most bits bytes <;> grind

/-- The text of some bytes, as far as they make one. -/
def decodeLossy : List UInt8 → List Char
  | [] => []
  | b :: rest =>
    if b.toNat < 0x80 then .ofNat b.toNat :: decodeLossy rest
    else
      match Lead.ofByte? b.toNat with
      | none => replacement :: decodeLossy rest
      | some lead =>
        have := length_continued_le lead.following lead.least lead.most lead.bits rest
        (continued lead.following lead.least lead.most lead.bits rest).1
          :: decodeLossy (continued lead.following lead.least lead.most lead.bits rest).2
termination_by bytes => bytes.length

end ChangeImpact.Text
