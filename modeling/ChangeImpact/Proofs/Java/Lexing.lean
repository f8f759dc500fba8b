import ChangeImpact.Java.Lexer
import Mathlib.Data.Bool.AllAny
import Mathlib.Data.List.Chain
import Mathlib.Tactic.IntervalCases

/-!
# Reading tokens back

Tokens that are written one after the other, with layout between them, are read back as they
were written, layout and all, as long as no two of them grow together. Which tokens may do so
is a matter of two neighbours alone.

## Main definitions

* `IsLayout`, `IsEnding`: layout between tokens, and at the end of a source.
* `Token.IsAmong`, `Token.IsLegible`: words and some symbols, which may be all symbols of
  declarations.
* `Token.Apart`, `Token.Opens`: two neighbours do not grow together.

## Main statements

* `IsLayout.afterLayout_append`: all layout is skipped.
* `Token.IsLegible.lexeme?_append`: a token is read back in front of what does not continue it.
* `Lexer.tokens_source`: so are all tokens of a source.
-/

namespace ChangeImpact.Java

open Lexer

/-! ## Layout -/

/-- Blanks and closed comments, in any order. -/
inductive IsLayout : List Char → Prop
  | nil : IsLayout []
  | blank {c : Char} {cs : List Char} (blank : isBlank c = true) (more : IsLayout cs) :
      IsLayout (c :: cs)
  | line {body cs : List Char} (inside : ∀ c ∈ body, inLine c = true) (more : IsLayout cs) :
      IsLayout ('/' :: '/' :: (body ++ '\n' :: cs))
  | block {body cs : List Char} (inside : ¬ ['*', '/'] <:+: body)
      (printable : ∀ c ∈ body, c.toNat ≠ 0) (more : IsLayout cs) :
      IsLayout ('/' :: '*' :: (body ++ '*' :: '/' :: cs))

/-- Layout at the end of a source: its last line may end in a comment. -/
inductive IsEnding : List Char → Prop
  | layout {cs : List Char} (layout : IsLayout cs) : IsEnding cs
  | line {cs body : List Char} (layout : IsLayout cs) (inside : ∀ c ∈ body, inLine c = true) :
      IsEnding (cs ++ '/' :: '/' :: body)

theorem IsLayout.of_isBlank {cs : List Char} (h : cs.all isBlank = true) : IsLayout cs := by
  induction cs with
  | nil => exact .nil
  | cons c cs ih =>
    rw [List.all_cons, Bool.and_eq_true] at h
    exact .blank h.1 (ih h.2)

def blanks : List Char := [' ', '\t', '\n', '\x0b', '\x0c', '\r']

theorem mem_blanks_of_isBlank {c : Char} (h : isBlank c = true) : c ∈ blanks := by
  simp only [isBlank, Bool.or_eq_true, beq_iff_eq, Bool.and_eq_true, decide_eq_true_eq] at h
  rcases h with rfl | ⟨low, high⟩
  · decide
  · rw [← Char.ofNat_toNat c]
    interval_cases c.toNat <;> decide

theorem afterLayout_of_item {cs rest : List Char} (h : afterLayoutItem? cs = some rest) :
    afterLayout cs = afterLayout rest := by
  rw [afterLayout]
  split
  · rename_i none_found
    rw [h] at none_found
    cases none_found
  · rename_i found
    rw [h] at found
    cases found
    rfl

theorem afterLayout_of_no_item {cs : List Char} (h : afterLayoutItem? cs = none) :
    afterLayout cs = cs := by
  rw [afterLayout]
  split
  · rfl
  · rename_i found
    rw [h] at found
    cases found

theorem afterLayoutItem?_of_ne_slash {c : Char} {cs : List Char} (h : c ≠ '/') :
    afterLayoutItem? (c :: cs) = if isBlank c then some cs else none := by
  rw [afterLayoutItem?.eq_4]
  · rintro rest rfl
    exact absurd rfl h
  · rintro rest rfl
    exact absurd rfl h

theorem afterLayout_blank_cons {c : Char} {cs : List Char} (h : isBlank c = true) :
    afterLayout (c :: cs) = afterLayout cs := by
  apply afterLayout_of_item
  have other : c ≠ '/' := by
    rintro rfl
    exact absurd h (by decide)
  rw [afterLayoutItem?_of_ne_slash other, if_pos h]

/-- A comment ends with the first `*/`. -/
theorem afterComment?_append {body rest : List Char} (inside : ¬ ['*', '/'] <:+: body)
    (printable : ∀ c ∈ body, c.toNat ≠ 0) :
    afterComment? (body ++ '*' :: '/' :: rest) = some rest := by
  induction body with
  | nil => rfl
  | cons c cs ih =>
    have later : afterComment? (cs ++ '*' :: '/' :: rest) = some rest :=
      ih (fun h => inside (h.trans (List.suffix_cons c cs).isInfix))
        fun d hd => printable d (List.mem_cons_of_mem c hd)
    have open_here : ∀ r, c = '*' → cs ++ '*' :: '/' :: rest = '/' :: r → False := by
      rintro r rfl eq
      cases cs with
      | nil => exact absurd (List.cons.inj eq).1 (by decide)
      | cons d ds =>
        rw [(List.cons.inj eq).1] at inside
        exact inside ⟨[], ds, rfl⟩
    rw [List.cons_append, afterComment?.eq_3 _ _ open_here,
      if_neg (printable c List.mem_cons_self), later]

/-- By induction on the blanks and comments. Nothing is asked of what follows, for each of them ends
by itself. -/
theorem IsLayout.afterLayout_append {l : List Char} (h : IsLayout l) (rest : List Char) :
    afterLayout (l ++ rest) = afterLayout rest := by
  induction h with
  | nil => rfl
  | blank blank _ ih => rw [List.cons_append, afterLayout_blank_cons blank, ih]
  | @line body cs inside _ ih =>
    have skipped : (body ++ '\n' :: (cs ++ rest)).dropWhile inLine = '\n' :: (cs ++ rest) := by
      rw [List.dropWhile_append_of_pos inside]
      rfl
    have item : afterLayoutItem? ('/' :: '/' :: (body ++ '\n' :: (cs ++ rest)))
        = some ('\n' :: (cs ++ rest)) := by
      rw [afterLayoutItem?, skipped]
    simp only [List.cons_append, List.append_assoc]
    rw [afterLayout_of_item item, afterLayout_blank_cons (by decide), ih]
  | @block body cs inside printable _ ih =>
    have item : afterLayoutItem? ('/' :: '*' :: (body ++ '*' :: '/' :: (cs ++ rest)))
        = some (cs ++ rest) := by
      rw [afterLayoutItem?, afterComment?_append inside printable]
    simp only [List.cons_append, List.append_assoc]
    rw [afterLayout_of_item item, ih]

/-- A comment in the last line need not be closed by a line break. -/
theorem IsEnding.afterLayout_eq_nil {tail : List Char} (h : IsEnding tail) :
    afterLayout tail = [] := by
  have none_left : afterLayout [] = [] := afterLayout_of_no_item rfl
  cases h with
  | layout layout => rw [← List.append_nil tail, layout.afterLayout_append, none_left]
  | @line cs body layout inside =>
    have item : afterLayoutItem? ('/' :: '/' :: body) = some [] := by
      rw [afterLayoutItem?, ← List.append_nil body, List.dropWhile_append_of_pos inside]
      rfl
    rw [layout.afterLayout_append, afterLayout_of_item item, none_left]

/-- The characters that layout begins with. -/
def layoutStarts : List Char := '/' :: blanks

theorem IsLayout.mem_starts {l : List Char} (h : IsLayout l) :
    ∀ c ∈ l.head?, c ∈ layoutStarts := by
  cases h with
  | nil => simp
  | blank blank _ =>
    rintro _ ⟨⟩
    exact List.mem_cons_of_mem _ (mem_blanks_of_isBlank blank)
  | line | block =>
    rintro _ ⟨⟩
    exact List.mem_cons_self

theorem IsEnding.mem_starts {tail : List Char} (h : IsEnding tail) :
    ∀ c ∈ tail.head?, c ∈ layoutStarts := by
  cases h with
  | layout layout => exact layout.mem_starts
  | @line cs body layout inside =>
    cases cs with
    | nil =>
      rintro _ ⟨⟩
      exact List.mem_cons_self
    | cons c cs => exact layout.mem_starts

/-! ## Words and separators -/

def separators : List String := ["@", ".", "*", ";", ",", "(", ")", "\x7b", "\x7d"]

/-- The marks of generic types, arrays and variable parameters. -/
def typeMarks : List String := ["<", ">", "?", "[", "]", "..."]

def declarationSymbols : List String := separators ++ typeMarks

theorem separators_subset : separators ⊆ declarationSymbols := List.subset_append_left _ _

/-- The characters that separators and marks begin with. -/
def symbolChars : List Char :=
  ['@', '.', '*', ';', ',', '(', ')', '\x7b', '\x7d', '<', '>', '?', '[', ']']

/-- Only the single dot and the three dots begin with one, and a dot is where a number could begin.
-/
theorem toList_of_mem_separators {text : String} (h : text ∈ declarationSymbols) :
    ∃ c cs, text.toList = c :: cs ∧ c ∈ symbolChars ∧ (c = '.' → text = "." ∨ cs = ['.', '.']) := by
  simp only [declarationSymbols, separators, typeMarks, List.cons_append, List.nil_append,
    List.mem_cons, List.not_mem_nil, or_false] at h
  rcases h with rfl | rfl | rfl | rfl | rfl | rfl | rfl | rfl | rfl | rfl | rfl | rfl | rfl | rfl |
    rfl <;> exact ⟨_, _, rfl, by decide, by decide⟩

inductive Token.IsAmong (symbols : List String) : Token → Prop
  | word (layout : List Char) {c : Char} {cs : List Char} (begins : beginsWord c = true)
      (continues : ∀ d ∈ cs, continuesWord d = true) :
      IsAmong symbols ⟨layout, .word, String.ofList (c :: cs)⟩
  | symbol (layout : List Char) {text : String} (among : text ∈ symbols) :
      IsAmong symbols ⟨layout, .symbol, text⟩

abbrev Token.IsLegible : Token → Prop := IsAmong declarationSymbols

theorem Token.IsAmong.mono {symbols symbols' : List String} {t : Token} (h : t.IsAmong symbols)
    (sub : symbols ⊆ symbols') : t.IsAmong symbols' := by
  cases h with
  | word layout begins continues => exact .word layout begins continues
  | symbol layout among => exact .symbol layout (sub among)

theorem Token.IsAmong.isSymbol_eq_false {symbols : List String} {t : Token}
    (h : t.IsAmong symbols) {text : String} (other : text ∉ symbols) :
    t.isSymbol text = false := by
  cases h with
  | word => rfl
  | @symbol _ own among =>
    simpa [Token.isSymbol] using fun eq : own = text => other (eq ▸ among)

/-- What follows a token does not continue it. -/
structure Token.EndsBefore (t : Token) (next : List Char) : Prop where
  word : t.isWord = true → ∀ c ∈ next.head?, continuesWord c = false
  marker : t.isSymbol "@" = true → ¬ "interface".toList <+: next
  dot : t.isSymbol "." = true → ∀ c ∈ next.head?, c.isDigit = false ∧ c ≠ '.'
  star : t.isSymbol "*" = true → next.head? ≠ some '='
  angle : t.isSymbol "<" = true → ∀ c ∈ next.head?, c ≠ '<' ∧ c ≠ '='

/-! ## Numbers -/

theorem foldl_bind_none {α β : Type} (f : α → β → Option α) (parts : List β) :
    parts.foldl (fun total part => total.bind (f · part)) none = none := by
  induction parts with
  | nil => rfl
  | cons _ _ ih => exact ih

/-- A form of a number is not there if its first part is not. -/
theorem chain_must_of_eq_zero {cs : List Char} {f : List Char → Nat} (missing : f cs = 0)
    (parts : List (Bool × (List Char → Nat))) : chain cs (must f :: parts) = 0 := by
  simp only [chain, List.foldl_cons, must, Option.bind_some, List.drop_zero, missing,
    Bool.true_and, beq_self_eq_true, if_true]
  rw [foldl_bind_none]
  rfl

/-- A way to write a number fails with the first part that must be there and is missing. -/
theorem chain_must_must_of_eq_zero {cs : List Char} {f g : List Char → Nat}
    (missing : g (cs.drop (f cs)) = 0) (parts : List (Bool × (List Char → Nat))) :
    chain cs (must f :: must g :: parts) = 0 := by
  by_cases first : f cs = 0
  · exact chain_must_of_eq_zero first _
  simp only [chain, List.foldl_cons, must, Option.bind_some, List.drop_zero, Nat.zero_add,
    Bool.true_and, beq_iff_eq, if_neg first, missing, if_true]
  rw [foldl_bind_none]
  rfl

/-- Every number begins with a digit, or with a dot in front of one. -/
theorem numberLength_eq_zero {c : Char} {cs : List Char} (noDigit : c.isDigit = false)
    (noFraction : c = '.' → ∀ d ∈ cs.head?, d.isDigit = false) : numberLength (c :: cs) = 0 := by
  have noDigits (runs : Bool) : digits Char.isDigit runs (c :: cs) = 0 := by simp [digits, noDigit]
  have noBase (letter : Char) : base letter (c :: cs) = 0 := by
    have nonzero : c ≠ '0' := by
      rintro rfl
      cases noDigit
    unfold base
    split
    · simp_all
    · rfl
  have fraction : digits Char.isDigit false ((c :: cs).drop (mark (· == '.') (c :: cs))) = 0 := by
    by_cases point : c = '.'
    · cases cs with
      | nil => simp [mark, point, digits]
      | cons d ds => simp [mark, point, digits, noFraction point d rfl]
    · simp [mark, point, digits, noDigit]
  simp only [numberLength, numberForms, List.map_cons, List.map_nil, List.foldl_cons,
    List.foldl_nil, chain_must_of_eq_zero (noDigits _), chain_must_of_eq_zero (noBase _),
    chain_must_must_of_eq_zero fraction, Nat.max_self]

/-! ## Single tokens -/

/-- The first symbol of the table that fits is the longest, and what follows does not make it
longer. -/
theorem symbolToken?_append {text : String} {next : List Char}
    (symbol : text ∈ declarationSymbols) (ends : Token.EndsBefore ⟨[], .symbol, text⟩ next) :
    symbolToken? [] (text.toList ++ next) = some ⟨.symbol, text.toList.length, []⟩ := by
  -- only four of them begin a longer symbol
  have noMarker : text = "@" →
      ['i', 'n', 't', 'e', 'r', 'f', 'a', 'c', 'e'].isPrefixOf next = false := by
    rintro rfl
    simpa [← List.isPrefixOf_iff_prefix] using ends.marker rfl
  have noEllipsis : text = "." → ['.', '.'].isPrefixOf next = false := by
    rintro rfl
    cases next with
    | nil => rfl
    | cons c cs => simp [List.isPrefixOf, (ends.dot rfl c rfl).2.symm]
  have noAssignment : text = "*" → ['='].isPrefixOf next = false := by
    rintro rfl
    cases next with
    | nil => rfl
    | cons c cs =>
      have other : c ≠ '=' := by simpa using ends.star rfl
      simp [List.isPrefixOf, other.symm]
  have noOperator : text = "<" → ['<', '='].isPrefixOf next = false ∧
      ['<'].isPrefixOf next = false ∧ ['='].isPrefixOf next = false := by
    rintro rfl
    cases next with
    | nil => exact ⟨rfl, rfl, rfl⟩
    | cons c cs =>
      obtain ⟨noShift, noEquals⟩ := ends.angle rfl c rfl
      simp [List.isPrefixOf, noShift.symm, noEquals.symm]
  simp only [declarationSymbols, separators, typeMarks, List.cons_append, List.nil_append,
    List.mem_cons, List.not_mem_nil, or_false] at symbol
  rcases symbol with rfl | rfl | rfl | rfl | rfl | rfl | rfl | rfl | rfl | rfl | rfl | rfl | rfl |
    rfl | rfl <;>
    simp [symbolToken?, symbols, List.isPrefixOf, noMarker, noEllipsis, noAssignment, noOperator]

theorem isDigit_of_beginsWord {c : Char} (h : beginsWord c = true) : c.isDigit = false := by
  by_contra digit
  simp only [Char.isDigit, ge_iff_le, Bool.and_eq_true, decide_eq_true_eq, Bool.not_eq_false,
    UInt32.le_iff_toNat_le] at digit
  have low : 48 ≤ c.toNat := digit.1
  have high : c.toNat ≤ 57 := digit.2
  rw [← Char.ofNat_toNat c] at h
  interval_cases c.toNat <;> exact absurd h (by decide)

/-- What a legible token begins with. -/
theorem Token.IsLegible.exists_head {t : Token} (legible : t.IsLegible) :
    ∃ c cs, t.text.toList = c :: cs ∧ (t.isWord = true ∧ beginsWord c = true ∨
      t.isWord = false ∧ c ∈ symbolChars) := by
  cases legible with
  | word layout begins _ => exact ⟨_, _, String.toList_ofList, .inl ⟨rfl, begins⟩⟩
  | symbol layout among =>
    obtain ⟨c, cs, eq, start, -⟩ := toList_of_mem_separators among
    exact ⟨c, cs, eq, .inr ⟨rfl, start⟩⟩

theorem lexeme?_word {c : Char} {cs next : List Char} (begins : beginsWord c = true)
    (continues : ∀ d ∈ cs, continuesWord d = true)
    (ends : ∀ d ∈ next.head?, continuesWord d = false) :
    lexeme? [] (c :: (cs ++ next)) = some ⟨.word, (c :: cs).length, []⟩ := by
  have stops : next.takeWhile continuesWord = [] := by
    cases next with
    | nil => rfl
    | cons d ds => exact List.takeWhile_cons_of_neg (by simp [ends d rfl])
  have whole : (cs ++ next).takeWhile continuesWord = cs := by
    rw [List.takeWhile_append_of_pos continues, stops, List.append_nil]
  have read : lexeme? [] (c :: (cs ++ next))
      = some ⟨.word, 1 + ((cs ++ next).takeWhile continuesWord).length, []⟩ := by
    unfold lexeme?
    exact if_pos begins
  rw [read, whole, Nat.add_comm, List.length_cons]

theorem symbolChars_noWord : ∀ c ∈ symbolChars,
    beginsWord c = false ∧ c.isDigit = false ∧ (c == '\'') = false ∧ (c == '"') = false :=
  List.all_iff_forall_prop.mp (by decide)

/-- No word, number or quoted text begins like a separator, so the table of symbols decides. -/
theorem lexeme?_symbol {text : String} {next : List Char} (symbol : text ∈ declarationSymbols)
    (ends : Token.EndsBefore ⟨[], .symbol, text⟩ next) :
    lexeme? [] (text.toList ++ next) = some ⟨.symbol, text.toList.length, []⟩ := by
  rw [← symbolToken?_append symbol ends]
  obtain ⟨c, cs, eq, mem, dots⟩ := toList_of_mem_separators symbol
  obtain ⟨noWord, noDigit, noCharacter, noString⟩ := symbolChars_noWord c mem
  have noNumber : numberLength (c :: (cs ++ next)) = 0 := by
    refine numberLength_eq_zero noDigit fun isDot d hd => ?_
    rcases dots isDot with rfl | rfl
    · cases eq
      exact (ends.dot rfl d hd).1
    · cases hd
      rfl
  rw [eq, List.cons_append]
  unfold lexeme?
  dsimp only
  rw [noNumber, noWord, noCharacter, noString]
  rfl

theorem Token.IsLegible.lexeme?_append {t : Token} (legible : t.IsLegible) {next : List Char}
    (ends : t.EndsBefore next) :
    lexeme? [] (t.text.toList ++ next) = some ⟨t.kind, t.text.toList.length, []⟩ := by
  cases legible with
  | word layout begins continues =>
    rw [String.toList_ofList, List.cons_append]
    exact lexeme?_word begins continues (ends.word rfl)
  | symbol layout among =>
    exact lexeme?_symbol among ⟨nofun, ends.marker, ends.dot, ends.star, ends.angle⟩

theorem Token.IsLegible.afterLayout_append {t : Token} (legible : t.IsLegible)
    (next : List Char) : afterLayout (t.text.toList ++ next) = t.text.toList ++ next := by
  obtain ⟨c, cs, eq, start⟩ := legible.exists_head
  have noLayout : c ∉ layoutStarts := by
    rcases start with ⟨-, begins⟩ | ⟨-, mem⟩
    · intro mem
      have noWord : ∀ d ∈ layoutStarts, beginsWord d = false :=
        List.all_iff_forall_prop.mp (by decide)
      rw [noWord c mem] at begins
      cases begins
    · have noLayout : ∀ d ∈ symbolChars, d ∉ layoutStarts :=
        List.all_iff_forall_prop.mp (by decide)
      exact noLayout c mem
  apply afterLayout_of_no_item
  rw [eq, List.cons_append, afterLayoutItem?_of_ne_slash, if_neg]
  · exact fun blank => noLayout (List.mem_cons_of_mem _ (mem_blanks_of_isBlank blank))
  · rintro rfl
    exact noLayout List.mem_cons_self

/-- One token is read, and reading goes on behind it. -/
theorem Token.IsLegible.tokensWithin_append {t : Token} (legible : t.IsLegible)
    (layout : IsLayout t.layout) {next : List Char} (ends : t.EndsBefore next) :
    tokensWithin [] (t.layout ++ (t.text.toList ++ next)) = t :: tokensWithin [] next := by
  have body : afterLayout (t.layout ++ (t.text.toList ++ next)) = t.text.toList ++ next := by
    rw [layout.afterLayout_append, legible.afterLayout_append]
  have someText : 0 < t.text.toList.length := by
    obtain ⟨c, cs, eq, -⟩ := legible.exists_head
    simp [eq]
  have someLeft : (t.text.toList ++ next).isEmpty = false := by
    rw [List.isEmpty_eq_false_iff, ← List.length_pos_iff, List.length_append]
    omega
  have before : (t.layout ++ (t.text.toList ++ next)).length - (t.text.toList ++ next).length
      = t.layout.length := by
    rw [List.length_append, Nat.add_sub_cancel]
  have shorter : next.length < (t.layout ++ (t.text.toList ++ next)).length := by
    simp only [List.length_append]
    omega
  rw [tokensWithin]
  simp only [body, someLeft, before, legible.lexeme?_append ends, Option.getD_some,
    List.drop_left, List.take_left, String.ofList_toList, dif_pos shorter]
  rfl

/-! ## Neighbours -/

/-- Two tokens in a row do not grow together: layout stands between two words, no word that
begins like `interface` stands close to an `@`, and a word or an asterisk follows a dot. -/
structure Token.Apart (t t' : Token) : Prop where
  words : t.isWord = true → t'.isWord = true → t'.layout ≠ []
  marker : t.isSymbol "@" = true → t'.layout = [] → ¬ "interface".toList <+: t'.text.toList
  dot : t.isSymbol "." = true → t'.isWord = true ∨ t'.isSymbol "*" = true

/-- An opening bracket is followed by a word or a question mark. -/
def Token.Opens (t t' : Token) : Prop :=
  t.isSymbol "<" = true → t'.isWord = true ∨ t'.isSymbol "?" = true

/-- Layout continues no token. -/
theorem Token.endsBefore_of_layoutStarts (t : Token) {next : List Char}
    (starts : ∀ c ∈ next.head?, c ∈ layoutStarts) : t.EndsBefore next := by
  have noWord : ∀ c ∈ layoutStarts, continuesWord c = false :=
    List.all_iff_forall_prop.mp (by decide)
  have noFraction : ∀ c ∈ layoutStarts, c.isDigit = false ∧ c ≠ '.' :=
    List.all_iff_forall_prop.mp (by decide)
  have noOperator : ∀ c ∈ layoutStarts, c ≠ '<' ∧ c ≠ '=' :=
    List.all_iff_forall_prop.mp (by decide)
  refine ⟨fun _ c hc => noWord c (starts c hc), fun _ h => ?_,
    fun _ c hc => noFraction c (starts c hc), fun _ h => absurd (starts '=' h) (by decide),
    fun _ c hc => noOperator c (starts c hc)⟩
  obtain ⟨rest, rfl⟩ := h
  exact absurd (starts 'i' rfl) (by decide)

/-- A word ends at the first character that continues none, so whatever is found there lies inside.
-/
theorem prefix_of_prefix_append_of_continuesWord {start text next : List Char}
    (continues : ∀ c ∈ start, continuesWord c = true)
    (ends : ∀ c ∈ next.head?, continuesWord c = false) (h : start <+: text ++ next) :
    start <+: text := by
  rcases List.prefix_or_prefix_of_prefix h (List.prefix_append text next) with h | ⟨more, rfl⟩
  · exact h
  cases more with
  | nil => simp
  | cons c cs =>
    obtain ⟨rest, eq⟩ := (List.prefix_append_right_inj text).mp h
    have stops := ends c (by rw [← eq]; rfl)
    rw [continues c (by simp)] at stops
    cases stops

/-- What follows a token is the layout of the next one or, where that is empty, its text. -/
theorem Token.Apart.endsBefore {t t' : Token} (apart : t.Apart t') (opens : t.Opens t')
    (legible : t'.IsLegible) (layout : IsLayout t'.layout) {next : List Char}
    (ends : t'.EndsBefore next) :
    t.EndsBefore (t'.layout ++ (t'.text.toList ++ next)) := by
  by_cases close : t'.layout = []
  case neg =>
    apply t.endsBefore_of_layoutStarts
    rw [List.head?_append_of_ne_nil _ close]
    exact layout.mem_starts
  rw [close, List.nil_append]
  obtain ⟨c, cs, eq, start⟩ := legible.exists_head
  refine ⟨fun word d hd => ?_, fun marker h => ?_, fun dot d hd => ?_, fun star h => ?_,
    fun angle d hd => ?_⟩
  · rcases start with ⟨word', -⟩ | ⟨-, separator⟩
    · exact absurd close (apart.words word word')
    · rw [eq] at hd
      cases hd
      have noWord : ∀ c ∈ symbolChars, continuesWord c = false :=
        List.all_iff_forall_prop.mp (by decide)
      exact noWord c separator
  · rcases start with ⟨word', -⟩ | ⟨-, separator⟩
    · have letters : ∀ c ∈ "interface".toList, continuesWord c = true :=
        List.all_eq_true.mp (by decide)
      apply apart.marker marker close
      exact prefix_of_prefix_append_of_continuesWord letters (ends.word word') h
    · obtain ⟨rest, same⟩ := h
      rw [eq] at same
      rw [← (List.cons.inj same).1] at separator
      exact absurd separator (by decide)
  · rw [eq] at hd
    cases hd
    rcases start with ⟨-, begins⟩ | ⟨noWord, separator⟩
    · refine ⟨isDigit_of_beginsWord begins, ?_⟩
      rintro rfl
      exact absurd begins (by decide)
    · rcases apart.dot dot with word | star
      · rw [noWord] at word
        cases word
      · simp only [Token.isSymbol, Bool.and_eq_true, beq_iff_eq] at star
        rw [star.2] at eq
        cases eq
        decide
  · rw [eq] at h
    cases h
    rcases start with ⟨-, begins⟩ | ⟨-, separator⟩
    · exact absurd begins (by decide)
    · exact absurd separator (by decide)
  · rw [eq] at hd
    cases hd
    rcases start with ⟨-, begins⟩ | ⟨noWord, -⟩
    · constructor <;> rintro rfl <;> exact absurd begins (by decide)
    · rcases opens angle with word | mark
      · rw [noWord] at word
        cases word
      · simp only [Token.isSymbol, Bool.and_eq_true, beq_iff_eq] at mark
        rw [mark.2] at eq
        cases eq
        decide

/-! ## Whole sources -/

section Source

variable {tail : List Char} (ending : IsEnding tail) {ts : List Token}
  (legible : ∀ t ∈ ts, t.IsLegible) (layout : ∀ t ∈ ts, IsLayout t.layout)

include ending legible layout

theorem Token.endsBefore_source (t : Token) (apart : (t :: ts).IsChain Token.Apart)
    (opens : (t :: ts).IsChain Token.Opens) : t.EndsBefore (Token.source ts ++ tail) := by
  induction ts generalizing t with
  | nil => exact t.endsBefore_of_layoutStarts ending.mem_starts
  | cons t' ts ih =>
    rw [List.isChain_cons_cons] at apart opens
    rw [Token.source, List.append_assoc, List.append_assoc]
    rw [List.forall_mem_cons] at legible layout
    exact apart.1.endsBefore opens.1 legible.1 layout.1
      (ih legible.2 layout.2 t' apart.2 opens.2)

/-- By induction on the tokens: each of them ends before what follows it, and so is read as it was
written. -/
theorem Lexer.tokensWithin_source (apart : ts.IsChain Token.Apart)
    (opens : ts.IsChain Token.Opens) : tokensWithin [] (Token.source ts ++ tail) = ts := by
  induction ts with
  | nil =>
    rw [tokensWithin, Token.source, List.nil_append, ending.afterLayout_eq_nil]
    rfl
  | cons t ts ih =>
    rw [List.forall_mem_cons] at legible layout
    have ends := t.endsBefore_source ending legible.2 layout.2 apart opens
    rw [Token.source, List.append_assoc, List.append_assoc,
      legible.1.tokensWithin_append layout.1 ends, ih legible.2 layout.2 apart.tail opens.tail]

/-- What a source begins with. -/
theorem Token.source_head : ∀ c ∈ (Token.source ts ++ tail).head?,
    c ∈ layoutStarts ∨ beginsWord c = true ∨ c ∈ symbolChars := by
  intro c hc
  cases ts with
  | nil => exact .inl (ending.mem_starts c hc)
  | cons t ts =>
    rw [List.forall_mem_cons] at legible layout
    rw [Token.source, List.append_assoc, List.append_assoc] at hc
    by_cases close : t.layout = []
    case neg =>
      rw [List.head?_append_of_ne_nil _ close] at hc
      exact .inl (layout.1.mem_starts c hc)
    obtain ⟨d, ds, eq, start⟩ := legible.1.exists_head
    rw [close, eq] at hc
    cases hc
    rcases start with ⟨-, begins⟩ | ⟨-, separator⟩
    · exact .inr (.inl begins)
    · exact .inr (.inr separator)

/-- All tokens of a source are read back. -/
theorem Lexer.tokens_source (apart : ts.IsChain Token.Apart) (opens : ts.IsChain Token.Opens) :
    tokens (Token.source ts ++ tail) = ts := by
  have noMark : ∀ rest, Token.source ts ++ tail = '\uFEFF' :: rest → False := by
    intro rest eq
    rcases Token.source_head ending legible layout '\uFEFF' (by rw [eq]; rfl) with h | h | h
    · exact absurd h (by decide)
    · exact absurd h (by decide +kernel)
    · exact absurd h (by decide)
  rw [tokens.eq_2 _ noMark, tokensWithin_source ending legible layout apart opens]

end Source

end ChangeImpact.Java
