import ChangeImpact.Json.Reader
import Mathlib.Data.List.Basic
import Mathlib.Tactic.SplitIfs

/-!
# Reading what was written

Reading gives back every value that is written, on one line or on many, if the numbers
in it are whole ones. The two written forms differ in nothing but the blanks between
the parts of a value, so they are treated as one form with a parameter for the blanks.

## Main definitions

* `Json.WholeNumbers`: the values whose numbers are natural numbers; its induction
  principle is the one for values.
* `Json.Spacing`, `Json.spaced`: the blanks of a written form, and the form.

## Main statements

* `Json.unescape?_escape`: every string can be read back.
* `Json.parse?_compact`, `Json.parse?_pretty`: so can every value, in both forms.
-/

namespace ChangeImpact.Json

/-! ## Strings -/

theorem hexValue?_hexDigit : ∀ n < 16, hexValue? (hexDigit n) = some n := by decide

theorem unit?_hexDigit {n : Nat} (h : n < 256) :
    unit? '0' '0' (hexDigit (n / 16)) (hexDigit (n % 16)) = some n := by
  have zero : hexValue? '0' = some 0 := rfl
  have high := hexValue?_hexDigit (n / 16) (by omega)
  have low := hexValue?_hexDigit (n % 16) (by omega)
  simp only [unit?, zero, high, low]
  exact congrArg some (by omega)

/-- The three ways to write a character: a letter behind a backslash, a number behind one, and
the character itself. -/
theorem escapeChar_cases (c : Char) :
    (∃ letter, escapeChar c = ['\\', letter] ∧ letter ≠ 'u' ∧ unescapeLetter? letter = some c) ∨
    (c.toNat < 32 ∧ escapeChar c =
      ['\\', 'u', '0', '0', hexDigit (c.toNat / 16), hexDigit (c.toNat % 16)]) ∨
    (escapeChar c = [c] ∧ c ≠ '"' ∧ c ≠ '\\' ∧ ¬ c.toNat < 32) := by
  generalize written : escapeChar c = w
  have letter : ∀ l d, w = ['\\', l] → l ≠ 'u' → unescapeLetter? l = some d →
      c.toNat = d.toNat → ∃ letter, w = ['\\', letter] ∧ letter ≠ 'u' ∧
        unescapeLetter? letter = some c := by
    intro l d eq hu meaning same
    exact ⟨l, eq, hu, Char.toNat_inj.1 same ▸ meaning⟩
  unfold escapeChar at written
  split_ifs at written with h₁ h₂ h₃ h₄ h₅ h₆ h₇ h₈
  · exact .inl (letter '"' '"' written.symm (by decide) rfl (by rw [h₁]))
  · exact .inl (letter '\\' '\\' written.symm (by decide) rfl (by rw [h₂]))
  · exact .inl (letter 'b' (.ofNat 8) written.symm (by decide) rfl h₃)
  · exact .inl (letter 't' '\t' written.symm (by decide) rfl h₄)
  · exact .inl (letter 'n' '\n' written.symm (by decide) rfl h₅)
  · exact .inl (letter 'f' (.ofNat 12) written.symm (by decide) rfl h₆)
  · exact .inl (letter 'r' '\r' written.symm (by decide) rfl h₇)
  · exact .inr (.inl ⟨h₈, written.symm⟩)
  · exact .inr (.inr ⟨written.symm, h₁, h₂, h₈⟩)

/-- A written character is taken into the body of a string as it is. -/
theorem stringBody?_escapeChar (c : Char) (rest : List Char) :
    stringBody? (escapeChar c ++ rest)
      = (stringBody? rest).map fun (body, left) => (escapeChar c ++ body, left) := by
  rcases escapeChar_cases c with
    ⟨letter, eq, hu, meaning⟩ | ⟨control, eq⟩ | ⟨eq, quote, slash, high⟩
  · rw [eq, List.cons_append, List.singleton_append, stringBody?, meaning]
    · cases stringBody? rest <;> rfl
    · exact fun _ _ _ _ _ u _ => hu u
  · have number := unit?_hexDigit (n := c.toNat) (by omega)
    rw [eq]
    simp only [List.cons_append, List.nil_append, stringBody?, number]
    cases stringBody? rest <;> rfl
  · have plain : (c = '\\' || c.toNat < 32) = false := by simp [slash, high]
    rw [eq, List.singleton_append, stringBody?, if_neg quote, plain]
    · cases stringBody? rest <;> rfl
    · exact fun _ _ _ _ _ u _ => slash u
    · exact fun _ _ u _ => slash u

theorem unescape?_escapeChar (c : Char) (rest : List Char) :
    unescape? (escapeChar c ++ rest) = (unescape? rest).map (c :: ·) := by
  rcases escapeChar_cases c with
    ⟨letter, eq, hu, meaning⟩ | ⟨control, eq⟩ | ⟨eq, quote, slash, high⟩
  · rw [eq, List.cons_append, List.singleton_append, unescape?, meaning]
    · cases unescape? rest <;> rfl
    · exact fun _ _ _ _ _ u _ => hu u
  · have number := unit?_hexDigit (n := c.toNat) (by omega)
    have notHigh : isHigh c.toNat = false := by simp [isHigh]; omega
    have notLow : isLow c.toNat = false := by simp [isLow]; omega
    rw [eq]
    simp only [List.cons_append, List.nil_append, unescape?, number]
    cases unescape? rest <;> simp [notHigh, notLow]
  · rw [eq, List.singleton_append, unescape?, if_neg slash]
    · cases unescape? rest <;> rfl
    · exact fun _ _ _ _ _ u _ => slash u
    · exact fun _ _ u _ => slash u

theorem unescape?_escape (cs : List Char) : unescape? (escape cs) = some cs := by
  induction cs with
  | nil => rfl
  | cons c cs ih =>
    rw [escape, List.flatMap_cons, ← escape, unescape?_escapeChar, ih]
    rfl

/-- The body of a written string ends at its closing quote. -/
theorem stringBody?_escape (cs rest : List Char) :
    stringBody? (escape cs ++ '"' :: rest) = some (escape cs, rest) := by
  induction cs with
  | nil => rfl
  | cons c cs ih =>
    rw [escape, List.flatMap_cons, ← escape, List.append_assoc, stringBody?_escapeChar, ih]
    rfl

/-! ## Numbers -/

/-- No character that could continue a number is next. -/
def EndsNumber (rest : List Char) : Prop :=
  ∀ c ∈ rest.head?, c.isDigit = false ∧ c ≠ '.' ∧ c ≠ 'e' ∧ c ≠ 'E'

theorem endsNumber_cons {c : Char} {rest : List Char}
    (h : c.isDigit = false ∧ c ≠ '.' ∧ c ≠ 'e' ∧ c ≠ 'E') : EndsNumber (c :: rest) := by
  simpa [EndsNumber] using h

theorem isDigit_of_mem_toDigits {n : Nat} {c : Char} (h : c ∈ Nat.toDigits 10 n) :
    c.isDigit = true :=
  Nat.isDigit_of_mem_toDigits (by decide) (by decide) h

/-- Digits are read up to the first character that is none. -/
theorem digits?_toDigits (n : Nat) {rest : List Char} (ends : EndsNumber rest) :
    digits? (Nat.toDigits 10 n ++ rest) = some (Nat.toDigits 10 n, rest) := by
  have all : ∀ c ∈ Nat.toDigits 10 n, c.isDigit = true := fun c => isDigit_of_mem_toDigits
  have stop : rest.takeWhile Char.isDigit = [] ∧ rest.dropWhile Char.isDigit = rest := by
    cases rest with
    | nil => exact ⟨rfl, rfl⟩
    | cons c rest =>
      have noDigit := (ends c rfl).1
      exact ⟨List.takeWhile_cons_of_neg (by simp [noDigit]),
        List.dropWhile_cons_of_neg (by simp [noDigit])⟩
  have taken : (Nat.toDigits 10 n ++ rest).takeWhile Char.isDigit = Nat.toDigits 10 n := by
    rw [List.takeWhile_append_of_pos all, stop.1, List.append_nil]
  have left : (Nat.toDigits 10 n ++ rest).dropWhile Char.isDigit = rest := by
    rw [List.dropWhile_append_of_pos all, stop.2]
  unfold digits?
  rw [taken, left]
  split
  · rename_i none
    exact absurd none Nat.toDigits_ne_nil
  · rfl

/-- A written natural number begins with a zero only if it is one. -/
theorem toDigits_head_ne_zero {n : Nat} (pos : 0 < n) : (Nat.toDigits 10 n).head? ≠ some '0' := by
  induction n using Nat.strongRecOn with
  | ind n ih =>
    rw [Nat.toDigits_eq_if (by decide)]
    split_ifs with small
    · have digits : ∀ n < 10, 0 < n → Nat.digitChar n ≠ '0' := by decide
      simpa using digits n small pos
    · have front := ih (n / 10) (by omega) (by omega)
      rwa [List.head?_append_of_ne_nil _ Nat.toDigits_ne_nil]

/-- Digits of a number begin with a zero only if it is zero, which is one digit. -/
theorem wholePart?_toDigits (n : Nat) {rest : List Char} (ends : EndsNumber rest) :
    wholePart? (Nat.toDigits 10 n ++ rest) = some (Nat.toDigits 10 n, rest) := by
  rcases Nat.eq_zero_or_pos n with rfl | pos
  · have stop : rest.head?.any Char.isDigit = false := by
      cases rest with
      | nil => rfl
      | cons c rest => exact (ends c rfl).1
    rw [Nat.toDigits_zero]
    simp [wholePart?, stop]
  · have read := digits?_toDigits n ends
    unfold wholePart?
    split
    · rename_i more zero
      have front := toDigits_head_ne_zero pos
      rw [← List.head?_append_of_ne_nil _ Nat.toDigits_ne_nil, zero] at front
      exact absurd rfl front
    · exact read

theorem fraction?_of_endsNumber {rest : List Char} (ends : EndsNumber rest) :
    fraction? rest = some ([], rest) := by
  unfold fraction?
  split
  · exact absurd rfl (ends '.' rfl).2.1
  · rfl

theorem exponent?_of_endsNumber {rest : List Char} (ends : EndsNumber rest) :
    exponent? rest = some ([], rest) := by
  cases rest with
  | nil => rfl
  | cons c rest =>
    have marks := (ends c rfl).2.2
    simp [exponent?, marks.1, marks.2]

theorem number?_toDigits (n : Nat) {rest : List Char} (ends : EndsNumber rest) :
    number? (Nat.toDigits 10 n ++ rest) = some (toString n, rest) := by
  have signless : ∀ more, Nat.toDigits 10 n ++ rest ≠ '-' :: more := by
    intro more minus
    obtain ⟨c, cs, digits⟩ := List.exists_cons_of_ne_nil (Nat.toDigits_ne_nil (n := n) (b := 10))
    rw [digits, List.cons_append, List.cons.injEq] at minus
    have digit : c.isDigit = true := isDigit_of_mem_toDigits (n := n) (by simp [digits])
    rw [minus.1] at digit
    exact absurd digit (by decide)
  unfold number?
  split
  rename_i sign cs split
  split at split
  · exact absurd ‹_› (signless _)
  · obtain ⟨rfl, rfl⟩ := Prod.mk.inj split
    rw [wholePart?_toDigits n ends]
    simp [fraction?_of_endsNumber ends, exponent?_of_endsNumber ends,
      Nat.repr_eq_ofList_toDigits]

/-! ## The written forms -/

/-- The blanks of a written form: `line depth` stands in front of the elements, and of the closing
bracket, of what is inside so many containers, and `colon` behind the colon of a field. -/
structure Spacing where
  line : Nat → List Char
  colon : List Char
  blank_line : ∀ depth, (line depth).all isBlank = true
  blank_colon : colon.all isBlank = true

namespace Spacing

def tight : Spacing where
  line _ := []
  colon := []
  blank_line _ := rfl
  blank_colon := rfl

/-- Every element on a line of its own. -/
def lines : Spacing where
  line := newline
  colon := [' ']
  blank_line depth := by simp [newline, isBlank]
  blank_colon := rfl

end Spacing

mutual

def spaced (w : Spacing) (depth : Nat) : Json → List Char
  | .null => "null".toList
  | .bool true => "true".toList
  | .bool false => "false".toList
  | .number n => n.toList
  | .string s => quote s
  | .array [] => ['[', ']']
  | .array (x :: xs) =>
    '[' :: w.line (depth + 1) ++ spaced w (depth + 1) x ++ spacedItems w (depth + 1) xs
      ++ w.line depth ++ [']']
  | .object [] => ['\x7b', '\x7d']
  | .object ((k, v) :: fields) =>
    '\x7b' :: w.line (depth + 1) ++ quote k ++ ':' :: w.colon ++ spaced w (depth + 1) v
      ++ spacedFields w (depth + 1) fields ++ w.line depth ++ ['\x7d']

def spacedItems (w : Spacing) (depth : Nat) : List Json → List Char
  | [] => []
  | x :: xs => ',' :: w.line depth ++ spaced w depth x ++ spacedItems w depth xs

def spacedFields (w : Spacing) (depth : Nat) : List (String × Json) → List Char
  | [] => []
  | (k, v) :: fields =>
    ',' :: w.line depth ++ quote k ++ ':' :: w.colon ++ spaced w depth v
      ++ spacedFields w depth fields

end

mutual

/-- The two written forms are one form with different blanks, so one proof serves for both. -/
theorem compactChars_eq_spaced (depth : Nat) : (j : Json) → j.compactChars = j.spaced .tight depth
  | .null | .bool true | .bool false | .number _ | .string _ | .array [] | .object [] => rfl
  | .array (x :: xs) => by
    simp [compactChars, spaced, Spacing.tight, compactChars_eq_spaced (depth + 1) x,
      compactItems_eq_spaced (depth + 1) xs]
  | .object ((k, v) :: fields) => by
    simp [compactChars, spaced, Spacing.tight, compactChars_eq_spaced (depth + 1) v,
      compactFields_eq_spaced (depth + 1) fields]

theorem compactItems_eq_spaced (depth : Nat) :
    (xs : List Json) → compactItems xs = spacedItems .tight depth xs
  | [] => rfl
  | x :: xs => by
    simp [compactItems, spacedItems, Spacing.tight, compactChars_eq_spaced depth x,
      compactItems_eq_spaced depth xs]

theorem compactFields_eq_spaced (depth : Nat) :
    (fields : List (String × Json)) → compactFields fields = spacedFields .tight depth fields
  | [] => rfl
  | (k, v) :: fields => by
    simp [compactFields, spacedFields, Spacing.tight, compactChars_eq_spaced depth v,
      compactFields_eq_spaced depth fields]

end

mutual

theorem prettyChars_eq_spaced (depth : Nat) :
    (j : Json) → j.prettyChars depth = j.spaced .lines depth
  | .null | .bool true | .bool false | .number _ | .string _ | .array [] | .object [] => rfl
  | .array (x :: xs) => by
    simp [prettyChars, spaced, Spacing.lines, prettyChars_eq_spaced (depth + 1) x,
      prettyItems_eq_spaced (depth + 1) xs]
  | .object ((k, v) :: fields) => by
    simp [prettyChars, spaced, Spacing.lines, prettyChars_eq_spaced (depth + 1) v,
      prettyFields_eq_spaced (depth + 1) fields]

theorem prettyItems_eq_spaced (depth : Nat) :
    (xs : List Json) → prettyItems depth xs = spacedItems .lines depth xs
  | [] => rfl
  | x :: xs => by
    simp [prettyItems, spacedItems, Spacing.lines, prettyChars_eq_spaced depth x,
      prettyItems_eq_spaced depth xs]

theorem prettyFields_eq_spaced (depth : Nat) :
    (fields : List (String × Json)) → prettyFields depth fields = spacedFields .lines depth fields
  | [] => rfl
  | (k, v) :: fields => by
    simp [prettyFields, spacedFields, Spacing.lines, prettyChars_eq_spaced depth v,
      prettyFields_eq_spaced depth fields]

end

/-! ## Reading values -/

/-- The values in which all numbers are natural numbers. -/
inductive WholeNumbers : Json → Prop where
  | null : WholeNumbers .null
  | bool (b : Bool) : WholeNumbers (.bool b)
  | nat (n : Nat) : WholeNumbers (.nat n)
  | string (s : String) : WholeNumbers (.string s)
  | array {items : List Json} : (∀ x ∈ items, WholeNumbers x) → WholeNumbers (.array items)
  | object {fields : List (String × Json)} :
    (∀ f ∈ fields, WholeNumbers f.2) → WholeNumbers (.object fields)

theorem skipBlanks_append {blanks : List Char} (blank : blanks.all isBlank = true)
    (rest : List Char) : skipBlanks (blanks ++ rest) = skipBlanks rest :=
  List.dropWhile_append_of_pos (by simpa using blank)

theorem skipBlanks_cons {c : Char} (h : isBlank c = false) (rest : List Char) :
    skipBlanks (c :: rest) = c :: rest :=
  List.dropWhile_cons_of_neg (by simp [h])

theorem endsNumber_append {blanks rest : List Char} (blank : blanks.all isBlank = true)
    (ends : EndsNumber rest) : EndsNumber (blanks ++ rest) := by
  cases blanks with
  | nil => exact ends
  | cons c blanks =>
    have hc : isBlank c = true := by simp at blank; exact blank.1
    refine endsNumber_cons ?_
    simp only [isBlank, Bool.or_eq_true, beq_iff_eq] at hc
    rcases hc with ((rfl | rfl) | rfl) | rfl <;> decide

theorem isBlank_of_isDigit {c : Char} (digit : c.isDigit = true) : isBlank c = false := by
  rw [← Bool.not_eq_true]
  intro blank
  simp only [isBlank, Bool.or_eq_true, beq_iff_eq] at blank
  rcases blank with ((rfl | rfl) | rfl) | rfl <;> exact absurd digit (by decide)

theorem toList_toString_nat (n : Nat) : (toString n).toList = Nat.toDigits 10 n := by simp

/-- A value begins with a character that is no blank and closes nothing. -/
theorem WholeNumbers.spaced_eq_cons {j : Json} (h : j.WholeNumbers) (w : Spacing) (depth : Nat) :
    ∃ c cs, j.spaced w depth = c :: cs ∧ isBlank c = false ∧ c ≠ ']' ∧ c ≠ '\x7d' := by
  cases h with
  | null => exact ⟨'n', _, rfl, by decide⟩
  | bool b => cases b <;> exact ⟨_, _, rfl, by decide⟩
  | nat n =>
    obtain ⟨c, cs, digits⟩ := List.exists_cons_of_ne_nil (Nat.toDigits_ne_nil (n := n) (b := 10))
    have digit : c.isDigit = true := isDigit_of_mem_toDigits (n := n) (by simp [digits])
    refine ⟨c, cs, (toList_toString_nat n).trans digits, isBlank_of_isDigit digit, ?_, ?_⟩
    · rintro rfl
      exact absurd digit (by decide)
    · rintro rfl
      exact absurd digit (by decide)
  | string s => exact ⟨'"', _, rfl, by decide⟩
  | @array items _ => cases items <;> exact ⟨'[', _, rfl, by decide⟩
  | @object fields _ => cases fields <;> exact ⟨'\x7b', _, rfl, by decide⟩

/-- The written form of a value is read back, whatever blanks stand before it and whatever stands
behind it. Twice as many steps as characters, and one more, are enough. -/
def Reads (w : Spacing) (j : Json) : Prop :=
  ∀ depth fuel blanks rest, blanks.all isBlank = true → EndsNumber rest →
    2 * (j.spaced w depth).length ≤ fuel →
    ∃ v, Written.value? (fuel + 1) (blanks ++ (j.spaced w depth ++ rest)) = some (v, rest) ∧
      v.decode? = some j

section

variable {w : Spacing} {depth fuel : Nat} {blanks closing : List Char}

/-- The items of an array are read up to the closing bracket. -/
theorem items?_spaced {x : Json} {xs : List Json} (hx : Reads w x) (hxs : ∀ y ∈ xs, Reads w y)
    (blank : blanks.all isBlank = true) (blankEnd : closing.all isBlank = true)
    (enough : 2 * ((x.spaced w depth).length + (spacedItems w depth xs).length) + 1 < fuel)
    (rest : List Char) :
    ∃ vs, Written.items? fuel (blanks ++ (x.spaced w depth ++ (spacedItems w depth xs
        ++ (closing ++ ']' :: rest)))) = some (vs, rest) ∧
      Written.decodeItems? vs = some (x :: xs) := by
  induction xs generalizing x blanks fuel with
  | nil =>
    obtain ⟨fuel, rfl⟩ : ∃ k, fuel = k + 2 := Nat.exists_eq_add_of_le' (by omega)
    have ends : EndsNumber (closing ++ ']' :: rest) :=
      endsNumber_append blankEnd (endsNumber_cons (by decide))
    obtain ⟨v, read, decoded⟩ := hx depth fuel blanks _ blank ends (by omega)
    refine ⟨[v], ?_, by simp [Written.decodeItems?, decoded]⟩
    rw [Written.items?, spacedItems, List.nil_append, read]
    simp [skipBlanks_append blankEnd, skipBlanks_cons (c := ']') rfl]
  | cons y ys ih =>
    obtain ⟨fuel, rfl⟩ : ∃ k, fuel = k + 2 := Nat.exists_eq_add_of_le' (by omega)
    simp only [spacedItems, List.length_append, List.length_cons] at enough
    have ends : EndsNumber (spacedItems w depth (y :: ys) ++ (closing ++ ']' :: rest)) :=
      endsNumber_cons (by decide)
    obtain ⟨v, read, decoded⟩ := hx depth fuel blanks _ blank ends (by omega)
    have enoughLeft : 2 * ((y.spaced w depth).length + (spacedItems w depth ys).length) + 1
        < fuel + 1 := by omega
    obtain ⟨vs, more, decodedMore⟩ := ih (hxs y (by simp)) (fun z hz => hxs z (by simp [hz]))
      (w.blank_line depth) enoughLeft
    refine ⟨v :: vs, ?_, by simp [Written.decodeItems?, decoded, decodedMore]⟩
    rw [Written.items?, read]
    simp only [spacedItems, List.cons_append, List.append_assoc, Option.bind_eq_bind,
      Option.bind_some, skipBlanks_cons (c := ',') rfl, more]
    rfl

/-- The fields of an object are read up to the closing brace. -/
theorem fields?_spaced {k : String} {x : Json} {fields : List (String × Json)} (hx : Reads w x)
    (hfields : ∀ f ∈ fields, Reads w f.2)
    (blank : blanks.all isBlank = true) (blankEnd : closing.all isBlank = true)
    (enough : 2 * ((x.spaced w depth).length + (spacedFields w depth fields).length) + 1 < fuel)
    (rest : List Char) :
    ∃ vs, Written.fields? fuel (blanks ++ (quote k ++ (':' :: w.colon ++ (x.spaced w depth
        ++ (spacedFields w depth fields ++ (closing ++ '\x7d' :: rest)))))) = some (vs, rest) ∧
      Written.decodeFields? vs = some ((k, x) :: fields) := by
  induction fields generalizing k x blanks fuel with
  | nil =>
    obtain ⟨fuel, rfl⟩ : ∃ k, fuel = k + 2 := Nat.exists_eq_add_of_le' (by omega)
    have ends : EndsNumber (closing ++ '\x7d' :: rest) :=
      endsNumber_append blankEnd (endsNumber_cons (by decide))
    obtain ⟨v, read, decoded⟩ := hx depth fuel w.colon _ w.blank_colon ends (by omega)
    refine ⟨[(escape k.toList, v)], ?_, ?_⟩
    · rw [Written.fields?, skipBlanks_append blank]
      simp only [quote, List.cons_append, List.append_assoc, List.nil_append, spacedFields,
        skipBlanks_cons (c := '"') rfl, stringBody?_escape, Option.bind_eq_bind, Option.bind_some,
        skipBlanks_cons (c := ':') rfl, read, skipBlanks_append blankEnd,
        skipBlanks_cons (c := '\x7d') rfl]
      rfl
    · simp [Written.decodeFields?, unescape?_escape, decoded]
  | cons f fs ih =>
    obtain ⟨k', y⟩ := f
    obtain ⟨fuel, rfl⟩ : ∃ k, fuel = k + 2 := Nat.exists_eq_add_of_le' (by omega)
    simp only [spacedFields, List.length_append, List.length_cons] at enough
    have ends : EndsNumber (spacedFields w depth ((k', y) :: fs) ++ (closing ++ '\x7d' :: rest)) :=
      endsNumber_cons (by decide)
    obtain ⟨v, read, decoded⟩ := hx depth fuel w.colon _ w.blank_colon ends (by omega)
    have enoughLeft : 2 * ((y.spaced w depth).length + (spacedFields w depth fs).length) + 1
        < fuel + 1 := by omega
    obtain ⟨vs, more, decodedMore⟩ := ih (k := k') (hfields (k', y) (by simp))
      (fun z hz => hfields z (by simp [hz])) (w.blank_line depth) enoughLeft
    refine ⟨(escape k.toList, v) :: vs, ?_, ?_⟩
    · rw [Written.fields?, skipBlanks_append blank]
      simp only [spacedFields, quote, List.cons_append, List.append_assoc, List.nil_append]
        at read more
      simp only [quote, List.cons_append, List.append_assoc, List.nil_append, spacedFields,
        skipBlanks_cons (c := '"') rfl, stringBody?_escape, Option.bind_eq_bind, Option.bind_some,
        skipBlanks_cons (c := ':') rfl, read, skipBlanks_cons (c := ',') rfl, more]
      rfl
    · simp [Written.decodeFields?, unescape?_escape, decoded, decodedMore]

theorem value?_append (blank : blanks.all isBlank = true) (cs : List Char) :
    Written.value? fuel (blanks ++ cs) = Written.value? fuel cs := by
  cases fuel with
  | zero => simp only [Written.value?]
  | succ fuel => rw [Written.value?, skipBlanks_append blank, Written.value?]

theorem afterWord?_append (word : String) (rest : List Char) :
    afterWord? word (word.toList ++ rest) = some rest := by
  have front : word.toList.isPrefixOf (word.toList ++ rest) = true := by simp
  rw [afterWord?, if_pos front, ← String.length_toList, List.drop_left]

/-- What begins with a digit is a number. -/
theorem value?_digit {c : Char} (digit : c.isDigit = true) (cs : List Char) :
    Written.value? (fuel + 1) (c :: cs)
      = (number? (c :: cs)).map fun (literal, left) => (.number literal, left) := by
  rw [Written.value?, skipBlanks_cons (isBlank_of_isDigit digit)]
  split
  case h_7 => rfl
  all_goals
    rename_i front
    rw [(List.cons.inj front).1] at digit
    exact absurd digit (by decide)

/-- An array with items is read as its items are. -/
theorem value?_array {x : Json} (hx : x.WholeNumbers) (cs : List Char)
    (blank : blanks.all isBlank = true) :
    Written.value? (fuel + 1) ('[' :: (blanks ++ (x.spaced w depth ++ cs)))
      = (Written.items? fuel (blanks ++ (x.spaced w depth ++ cs))).map
          fun (items, left) => (.array items, left) := by
  obtain ⟨c, more, front, notBlank, notClosing, -⟩ := hx.spaced_eq_cons w depth
  rw [Written.value?, skipBlanks_cons (c := '[') rfl]
  simp only [front, List.cons_append, skipBlanks_append blank, skipBlanks_cons notBlank]
  split
  · rename_i closing
    exact absurd (List.cons.inj closing).1 notClosing
  · rfl

/-- An object with fields is read as its fields are. -/
theorem value?_object (k : String) (cs : List Char) (blank : blanks.all isBlank = true) :
    Written.value? (fuel + 1) ('\x7b' :: (blanks ++ (quote k ++ cs)))
      = (Written.fields? fuel (blanks ++ (quote k ++ cs))).map
          fun (fields, left) => (.object fields, left) := by
  rw [Written.value?, skipBlanks_cons (c := '\x7b') rfl]
  simp only [quote, List.cons_append, skipBlanks_append blank, skipBlanks_cons (c := '"') rfl]
  rfl

end

/-- By induction on the value, whatever the spacing. -/
theorem WholeNumbers.reads {j : Json} (h : j.WholeNumbers) (w : Spacing) : Reads w j := by
  induction h with
  | null =>
    intro depth fuel blanks rest blank ends enough
    refine ⟨.null, ?_, rfl⟩
    rw [value?_append blank, Written.value?]
    exact congrArg (Option.map _) (afterWord?_append "ull" rest)
  | bool b =>
    intro depth fuel blanks rest blank ends enough
    refine ⟨.bool b, ?_, rfl⟩
    rw [value?_append blank, Written.value?]
    cases b with
    | false => exact congrArg (Option.map _) (afterWord?_append "alse" rest)
    | true => exact congrArg (Option.map _) (afterWord?_append "rue" rest)
  | nat n =>
    intro depth fuel blanks rest blank ends enough
    refine ⟨.number (toString n), ?_, rfl⟩
    obtain ⟨c, cs, digits⟩ := List.exists_cons_of_ne_nil (Nat.toDigits_ne_nil (n := n) (b := 10))
    have digit : c.isDigit = true := isDigit_of_mem_toDigits (n := n) (by simp [digits])
    have number := number?_toDigits n ends
    have text : (Json.nat n).spaced w depth = Nat.toDigits 10 n := toList_toString_nat n
    rw [digits, List.cons_append] at number
    rw [value?_append blank, text, digits, List.cons_append, value?_digit digit, number]
    rfl
  | string s =>
    intro depth fuel blanks rest blank ends enough
    refine ⟨.string (escape s.toList), ?_, by simp [Written.decode?, unescape?_escape]⟩
    have body := stringBody?_escape s.toList rest
    rw [value?_append blank, spaced, quote, List.cons_append, List.cons_append, List.append_assoc,
      Written.value?, skipBlanks_cons (c := '"') rfl]
    exact congrArg (Option.map _) body
  | @array items whole ih =>
    intro depth fuel blanks rest blank ends enough
    cases items with
    | nil => exact ⟨.array [], by rw [value?_append blank]; rfl, rfl⟩
    | cons x xs =>
      simp only [spaced, List.length_append, List.length_cons] at enough
      have enoughLeft : 2 * ((x.spaced w (depth + 1)).length
          + (spacedItems w (depth + 1) xs).length) + 1 < fuel := by omega
      obtain ⟨vs, read, decoded⟩ := items?_spaced (ih x (by simp)) (fun y hy => ih y (by simp [hy]))
        (w.blank_line (depth + 1)) (w.blank_line depth) enoughLeft rest
      refine ⟨.array vs, ?_, by simp [Written.decode?, decoded]⟩
      rw [value?_append blank]
      simp only [spaced, List.append_assoc, List.cons_append, List.nil_append]
      rw [value?_array (whole x (by simp)) _ (w.blank_line (depth + 1)), read]
      rfl
  | @object fields whole ih =>
    intro depth fuel blanks rest blank ends enough
    cases fields with
    | nil => exact ⟨.object [], by rw [value?_append blank]; rfl, rfl⟩
    | cons f fs =>
      obtain ⟨k, x⟩ := f
      simp only [spaced, List.length_append, List.length_cons] at enough
      have enoughLeft : 2 * ((x.spaced w (depth + 1)).length
          + (spacedFields w (depth + 1) fs).length) + 1 < fuel := by omega
      obtain ⟨vs, read, decoded⟩ := fields?_spaced (k := k) (ih (k, x) (by simp))
        (fun f hf => ih f (by simp [hf])) (w.blank_line (depth + 1)) (w.blank_line depth)
        enoughLeft rest
      refine ⟨.object vs, ?_, by simp [Written.decode?, decoded]⟩
      rw [value?_append blank]
      simp only [spaced, List.append_assoc, List.cons_append, List.nil_append] at read ⊢
      rw [value?_object k _ (w.blank_line (depth + 1)), read]
      rfl

/-- A value that fills a text is what the text says. -/
theorem parse?_spaced {j : Json} (h : j.WholeNumbers) (w : Spacing) (depth : Nat) :
    parse? (String.ofList (j.spaced w depth)) = some j := by
  obtain ⟨v, read, decoded⟩ := h.reads w depth (2 * (j.spaced w depth).length + 1) [] [] rfl
    nofun (by omega)
  rw [List.nil_append, List.append_nil, Nat.add_assoc] at read
  rw [parse?, Written.parse?, String.toList_ofList, String.length_ofList, read,
    Option.bind_eq_bind, Option.bind_some]
  exact decoded

theorem parse?_compact {j : Json} (h : j.WholeNumbers) : parse? j.compact = some j := by
  rw [compact, compactChars_eq_spaced 0]
  exact parse?_spaced h .tight 0

theorem parse?_pretty {j : Json} (h : j.WholeNumbers) : parse? j.pretty = some j := by
  rw [pretty, prettyChars_eq_spaced]
  exact parse?_spaced h .lines 0

end ChangeImpact.Json
