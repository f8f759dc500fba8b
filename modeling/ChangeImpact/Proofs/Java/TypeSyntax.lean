import ChangeImpact.Java.Grammar.Basic
import ChangeImpact.Java.SourceUnit
import ChangeImpact.Proofs.Java.Lexing

/-!
# Names and types as they are written

A type is a primitive type, a class, a class with arguments or an array, to any depth; arguments
may be wildcards. Names and types are written down as tokens, and a type says by itself which
class names it holds.

## Main definitions

* `Identifier`, `DottedName`: names.
* `TypeExpr`, `TypeArgument`, `TypeArguments`: types.
* `TypeExpr.names`: the simple names of the classes in a type, from left to right.
* `TypeExpr.tokens`: a type as tokens, without layout.
* `Token.Tidy`: tokens that any layout may part.

## Main statements

* `DottedName.simpleName_text`: the simple name of a dotted name is its last segment.
* `TypeExpr.names_kept`: what the grammar keeps of a type has the names of the type.
* `TypeExpr.tidy_tokens`: in a type every dot or opening bracket stands in front of what may
  follow it.
-/

namespace ChangeImpact.Java

open ChangeImpact.Java.Grammar

/-! ## Names -/

/-- Words that are no names: the keywords and literals of the language, and the two words that
begin a declaration where a type may stand. -/
def keywords : List String :=
  ["abstract", "assert", "boolean", "break", "byte", "case", "catch", "char", "class", "const",
   "continue", "default", "do", "double", "else", "enum", "extends", "final", "finally", "float",
   "for", "goto", "if", "implements", "import", "instanceof", "int", "interface", "long",
   "native", "new", "package", "private", "protected", "public", "return", "short", "static",
   "strictfp", "super", "switch", "synchronized", "this", "throw", "throws", "transient", "try",
   "void", "volatile", "while", "_", "true", "false", "null", "record", "sealed"]

def isWordText (text : String) : Bool :=
  match text.toList with
  | [] => false
  | c :: cs => Lexer.beginsWord c && cs.all Lexer.continuesWord

/-- A word that is no keyword. -/
structure Identifier where
  text : String
  isWord : isWordText text = true := by decide
  isName : text ∉ keywords := by decide
deriving DecidableEq

/-- Identifiers with dots between them. -/
structure DottedName where
  first : Identifier
  rest : List Identifier := []
deriving DecidableEq

theorem exists_cons_of_isWordText {text : String} (h : isWordText text = true) :
    ∃ c cs, text = String.ofList (c :: cs) ∧ Lexer.beginsWord c = true ∧
      ∀ d ∈ cs, Lexer.continuesWord d = true := by
  unfold isWordText at h
  split at h
  · cases h
  · rename_i c cs eq
    simp only [Bool.and_eq_true, List.all_eq_true] at h
    exact ⟨c, cs, by rw [← eq, String.ofList_toList], h⟩

/-- So the last dot of a dotted name stands in front of its last segment. -/
theorem dot_notMem_of_isWordText {text : String} (isWord : isWordText text = true) :
    '.' ∉ text.toList := by
  obtain ⟨c, cs, eq, begins, continues⟩ := exists_cons_of_isWordText isWord
  rw [eq, String.toList_ofList]
  rintro (_ | ⟨_, later⟩)
  · exact absurd begins (by decide)
  · exact absurd (continues '.' later) (by decide)

theorem Identifier.dot_notMem (i : Identifier) : '.' ∉ i.text.toList :=
  dot_notMem_of_isWordText i.isWord

/-- The words that the grammar sets apart somewhere are all keywords, so this serves for each such
list. -/
theorem Identifier.notMem (i : Identifier) {words : List String}
    (sub : ∀ w ∈ words, w ∈ keywords) : i.text ∉ words :=
  fun mem => i.isName (sub i.text mem)

theorem Identifier.contains_eq_false (i : Identifier) {words : List String}
    (sub : ∀ w ∈ words, w ∈ keywords) : words.contains i.text = false := by
  simpa using i.notMem sub

theorem Identifier.beq_eq_false (i : Identifier) {word : String} (keyword : word ∈ keywords) :
    (i.text == word) = false := by
  simpa using fun eq : i.text = word => i.isName (eq ▸ keyword)

/-- A simple name is its own last segment. -/
theorem Identifier.simpleName_text (i : Identifier) : simpleName i.text = i.text := by
  rw [simpleName, Text.afterLast, Text.listAfterLast_of_not_mem i.dot_notMem,
    String.ofList_toList]

namespace DottedName

def last (n : DottedName) : Identifier := n.rest.getLast?.getD n.first

def text (n : DottedName) : String :=
  n.rest.foldl (fun written i => written ++ "." ++ i.text) n.first.text

theorem simpleName_text (n : DottedName) : simpleName n.text = n.last.text := by
  obtain ⟨first, rest⟩ := n
  rcases rest.eq_nil_or_concat with rfl | ⟨init, i, rfl⟩
  · exact first.simpleName_text
  · simp only [text, last, List.concat_eq_append, List.foldl_append, List.foldl_cons,
      List.foldl_nil, List.getLast?_append_cons, List.getLast?_singleton, Option.getD_some]
    rw [simpleName, Text.afterLast, String.toList_append, String.toList_append, List.append_assoc]
    exact (congrArg _ (Text.listAfterLast_append_cons i.dot_notMem)).trans String.ofList_toList

end DottedName

/-! ## Tokens -/

def Token.ofWord (text : String) : Token := ⟨[], .word, text⟩

def Token.ofSymbol (text : String) : Token := ⟨[], .symbol, text⟩

namespace Token

@[simp] theorem text_ofWord (text : String) : (ofWord text).text = text := rfl

@[simp] theorem isWord_ofWord (text : String) : (ofWord text).isWord = true := rfl

@[simp] theorem isWord_ofSymbol (text : String) : (ofSymbol text).isWord = false := rfl

@[simp] theorem isWordOf_ofWord (text other : String) :
    (ofWord text).isWordOf other = (text == other) := rfl

@[simp] theorem isWordOf_ofSymbol (text other : String) : (ofSymbol text).isWordOf other = false :=
  rfl

@[simp] theorem isSymbol_ofWord (text other : String) : (ofWord text).isSymbol other = false := rfl

@[simp] theorem isSymbol_ofSymbol (text other : String) :
    (ofSymbol text).isSymbol other = (text == other) := rfl

/-- A separator is none of those that are not among some it is among. -/
theorem isSymbol_eq_false_of_mem {texts : List String} {text : String} (isIn : text ∈ texts)
    (other : String) (notIn : other ∉ texts) : (ofSymbol text).isSymbol other = false := by
  simpa using fun eq : text = other => notIn (eq ▸ isIn)

end Token

def Identifier.token (i : Identifier) : Token := .ofWord i.text

def DottedName.tokens (n : DottedName) : List Token :=
  n.first.token :: n.rest.flatMap fun i => [.ofSymbol ".", i.token]

theorem DottedName.textOf_tokens (n : DottedName) : Token.textOf n.tokens = n.text := by
  obtain ⟨first, rest⟩ := n
  -- what was written before grows by one segment at a time
  have segments (written : String) : String.ofList (written.toList
      ++ Token.source (rest.flatMap fun i => [.ofSymbol ".", i.token]))
      = rest.foldl (fun written i => written ++ "." ++ i.text) written := by
    induction rest generalizing written with
    | nil => simp [Token.source]
    | cons i rest ih =>
      rw [List.foldl_cons, ← ih]
      simp [Token.source, Token.ofSymbol, Identifier.token, Token.ofWord]
  exact segments first.text

/-! ## Types -/

inductive Primitive where
  | byte | short | int | long | char | float | double | boolean
deriving DecidableEq

def Primitive.text : Primitive → String
  | .byte => "byte"
  | .short => "short"
  | .int => "int"
  | .long => "long"
  | .char => "char"
  | .float => "float"
  | .double => "double"
  | .boolean => "boolean"

mutual

inductive TypeExpr where
  | primitive (p : Primitive)
  | named (name : DottedName)
  /-- A class with arguments. -/
  | generic (base : DottedName) (arguments : TypeArguments)
  | array (element : TypeExpr)

inductive TypeArgument where
  | type (t : TypeExpr)
  /-- The argument `?`. -/
  | any
  /-- The argument `? extends` some type. -/
  | upper (bound : TypeExpr)
  /-- The argument `? super` some type. -/
  | lower (bound : TypeExpr)

inductive TypeArguments where
  | last (argument : TypeArgument)
  | cons (argument : TypeArgument) (more : TypeArguments)

end

mutual

/-- The simple names of the classes in a type, from left to right. -/
def TypeExpr.names : TypeExpr → List String
  | .primitive _ => []
  | .named name => [name.last.text]
  | .generic base arguments => base.last.text :: arguments.names
  | .array element => element.names

def TypeArgument.names : TypeArgument → List String
  | .type t => t.names
  | .any => []
  | .upper bound => bound.names
  | .lower bound => bound.names

def TypeArguments.names : TypeArguments → List String
  | .last argument => argument.names
  | .cons argument more => argument.names ++ more.names

end

mutual

def TypeExpr.tokens : TypeExpr → List Token
  | .primitive p => [.ofWord p.text]
  | .named name => name.tokens
  | .generic base arguments =>
    base.tokens ++ .ofSymbol "<" :: (arguments.tokens ++ [.ofSymbol ">"])
  | .array element => element.tokens ++ [.ofSymbol "[", .ofSymbol "]"]

def TypeArgument.tokens : TypeArgument → List Token
  | .type t => t.tokens
  | .any => [.ofSymbol "?"]
  | .upper bound => .ofSymbol "?" :: .ofWord "extends" :: bound.tokens
  | .lower bound => .ofSymbol "?" :: .ofWord "super" :: bound.tokens

def TypeArguments.tokens : TypeArguments → List Token
  | .last argument => argument.tokens
  | .cons argument more => argument.tokens ++ .ofSymbol "," :: more.tokens

end

mutual

/-- What the grammar keeps of a type. -/
def TypeExpr.kept : TypeExpr → TypeRef
  | .primitive p => .primitive p.text
  | .named name => .named name.text
  | .generic base arguments => .generic base.text arguments.kept
  | .array element => .array element.kept

def TypeArgument.kept : TypeArgument → TypeRef
  | .type t => t.kept
  | .any => .wildcard
  | .upper bound => .bounded bound.kept
  | .lower bound => .bounded bound.kept

def TypeArguments.kept : TypeArguments → List TypeRef
  | .last argument => [argument.kept]
  | .cons argument more => argument.kept :: more.kept

end

mutual

/-- What is kept of a type has the names of the type. -/
theorem TypeExpr.names_kept : (t : TypeExpr) → t.kept.names = t.names
  | .primitive _ => by rw [TypeExpr.kept, TypeRef.names, TypeExpr.names]
  | .named name => by rw [TypeExpr.kept, TypeRef.names, TypeExpr.names, name.simpleName_text]
  | .generic base arguments => by
    rw [TypeExpr.kept, TypeRef.names, TypeExpr.names, base.simpleName_text,
      arguments.namesOfAll_kept]
  | .array element => by rw [TypeExpr.kept, TypeRef.names, TypeExpr.names, element.names_kept]

theorem TypeArgument.names_kept : (a : TypeArgument) → a.kept.names = a.names
  | .type t => by rw [TypeArgument.kept, TypeArgument.names, t.names_kept]
  | .any => by rw [TypeArgument.kept, TypeRef.names, TypeArgument.names]
  | .upper bound => by
    rw [TypeArgument.kept, TypeRef.names, TypeArgument.names, bound.names_kept]
  | .lower bound => by
    rw [TypeArgument.kept, TypeRef.names, TypeArgument.names, bound.names_kept]

theorem TypeArguments.namesOfAll_kept :
    (as : TypeArguments) → TypeRef.namesOfAll as.kept = as.names
  | .last argument => by
    rw [TypeArguments.kept, TypeRef.namesOfAll, TypeRef.namesOfAll, TypeArguments.names,
      argument.names_kept, List.append_nil]
  | .cons argument more => by
    rw [TypeArguments.kept, TypeRef.namesOfAll, TypeArguments.names, argument.names_kept,
      more.namesOfAll_kept]

end

/-! ## What types begin with -/

/-- What may follow the first word of a type. -/
structure AfterTypeWord (t : Token) : Prop where
  parameters : t.isSymbol "(" = false
  block : t.isSymbol "\x7b" = false
  dash : t.isSymbol "-" = false

/-- A word that begins no declaration and is no modifier. -/
structure BeginsNone (text : String) : Prop where
  modifier : modifierWords.contains text = false
  declaration : text ∉ ["class", "interface", "enum", "record"]

theorem beginsNone_identifier (i : Identifier) : BeginsNone i.text :=
  ⟨i.contains_eq_false (by decide), i.notMem (by decide)⟩

def BeginsType (ts : List Token) : Prop :=
  ∃ text us, ts = .ofWord text :: us ∧ BeginsNone text ∧ ∀ u ∈ us.head?, AfterTypeWord u

/-- The grammar looks at two tokens to see a type, and the second may be what follows it. -/
theorem BeginsType.append {ts : List Token} (h : BeginsType ts) {t : Token}
    (after : AfterTypeWord t) (rest : List Token) : BeginsType (ts ++ t :: rest) := by
  obtain ⟨text, us, rfl, free, next⟩ := h
  refine ⟨text, us ++ t :: rest, rfl, free, ?_⟩
  cases us with
  | nil => simpa using after
  | cons u us => simpa using next

theorem DottedName.beginsType (n : DottedName) : BeginsType n.tokens := by
  refine ⟨n.first.text, _, rfl, beginsNone_identifier n.first, ?_⟩
  cases n.rest with
  | nil => simp
  | cons i is =>
    rintro _ ⟨⟩
    exact ⟨rfl, rfl, rfl⟩

theorem TypeExpr.beginsType : (t : TypeExpr) → BeginsType t.tokens
  | .primitive p => by
    rw [tokens]
    refine ⟨p.text, [], rfl, ?_, by simp⟩
    cases p <;> exact ⟨rfl, by decide⟩
  | .named name => by
    rw [tokens]
    exact name.beginsType
  | .generic base arguments => by
    rw [tokens]
    exact base.beginsType.append ⟨rfl, rfl, rfl⟩ _
  | .array element => by
    rw [tokens]
    exact element.beginsType.append ⟨rfl, rfl, rfl⟩ _

/-- An argument begins with a word or a question mark. -/
theorem TypeArgument.tokens_starts (a : TypeArgument) :
    ∃ u us, a.tokens = u :: us ∧ (u.isWord = true ∨ u.isSymbol "?" = true) := by
  cases a with
  | type t =>
    obtain ⟨text, us, eq, -⟩ := t.beginsType
    exact ⟨_, us, by rw [tokens, eq], .inl rfl⟩
  | any => exact ⟨_, _, by rw [tokens], .inr (by decide)⟩
  | upper bound => exact ⟨_, _, by rw [tokens], .inr (by decide)⟩
  | lower bound => exact ⟨_, _, by rw [tokens], .inr (by decide)⟩

/-- These are the tokens that may follow an opening bracket in a tidy list. -/
theorem TypeArguments.tokens_starts (as : TypeArguments) :
    ∃ u us, as.tokens = u :: us ∧ (u.isWord = true ∨ u.isSymbol "?" = true) := by
  cases as with
  | last argument =>
    obtain ⟨u, us, eq, start⟩ := argument.tokens_starts
    exact ⟨u, us, by rw [tokens, eq], start⟩
  | cons argument more =>
    obtain ⟨u, us, eq, start⟩ := argument.tokens_starts
    exact ⟨u, us ++ .ofSymbol "," :: more.tokens, by rw [tokens, eq, List.cons_append], start⟩

/-! ## Tokens that can be laid out -/

/-- Words and symbols of which every dot stands in front of a word or an asterisk, and every
opening bracket in front of a word or a question mark. -/
structure Token.Tidy (symbols : List String) (ts : List Token) : Prop where
  plain : ∀ t ∈ ts, t.IsAmong symbols
  dots : ts.IsChain fun t t' => t.isSymbol "." = true → t'.isWord = true ∨ t'.isSymbol "*" = true
  opens : ts.IsChain Token.Opens
  last : ∀ t ∈ ts.getLast?, t.isSymbol "." = false ∧ t.isSymbol "<" = false

namespace Token.Tidy

variable {symbols : List String} {ts ts' : List Token}

theorem nil : Tidy symbols [] := ⟨by simp, .nil, .nil, by simp⟩

theorem mono (h : Tidy symbols ts) {symbols' : List String} (sub : symbols ⊆ symbols') :
    Tidy symbols' ts where
  plain t mem := (h.plain t mem).mono sub
  dots := h.dots
  opens := h.opens
  last := h.last

theorem append (h : Tidy symbols ts) (h' : Tidy symbols ts') : Tidy symbols (ts ++ ts') where
  plain := List.forall_mem_append.mpr ⟨h.plain, h'.plain⟩
  dots := by
    refine h.dots.append h'.dots fun t ht t' _ dot => ?_
    rw [(h.last t ht).1] at dot
    cases dot
  opens := by
    refine h.opens.append h'.opens fun t ht t' _ angle => ?_
    rw [(h.last t ht).2] at angle
    cases angle
  last t ht := by
    rw [List.getLast?_append, Option.mem_def, Option.or_eq_some_iff] at ht
    rcases ht with ht | ⟨-, ht⟩
    · exact h'.last t ht
    · exact h.last t ht

theorem flatMap {α : Type} {xs : List α} {f : α → List Token}
    (h : ∀ x ∈ xs, Tidy symbols (f x)) : Tidy symbols (xs.flatMap f) := by
  induction xs with
  | nil => exact nil
  | cons x xs ih =>
    rw [List.forall_mem_cons] at h
    exact h.1.append (ih h.2)

theorem singleton {t : Token} (plain : t.IsAmong symbols)
    (free : t.isSymbol "." = false ∧ t.isSymbol "<" = false) : Tidy symbols [t] :=
  ⟨by simpa using plain, .singleton t, .singleton t, by simpa using free⟩

theorem word (h : Tidy symbols ts) (text : String) (isWord : isWordText text = true) :
    Tidy symbols (.ofWord text :: ts) := by
  obtain ⟨c, cs, rfl, begins, continues⟩ := exists_cons_of_isWordText isWord
  exact (singleton (.word [] begins continues) ⟨rfl, rfl⟩).append h

theorem identifier (h : Tidy symbols ts) (i : Identifier) : Tidy symbols (i.token :: ts) :=
  h.word i.text i.isWord

theorem symbol (h : Tidy symbols ts) (text : String)
    (separator : text ∈ symbols ∧ text ≠ "." ∧ text ≠ "<") :
    Tidy symbols (.ofSymbol text :: ts) := by
  have free : (Token.ofSymbol text).isSymbol "." = false ∧
      (Token.ofSymbol text).isSymbol "<" = false := by
    simpa using separator.2
  exact (singleton (.symbol [] separator.1) free).append h

/-- A dot in front of a word or an asterisk. -/
theorem dot {t : Token} (h : Tidy symbols (t :: ts)) (among : "." ∈ symbols)
    (follows : t.isWord = true ∨ t.isSymbol "*" = true) :
    Tidy symbols (.ofSymbol "." :: t :: ts) where
  plain := List.forall_mem_cons.mpr ⟨.symbol [] among, h.plain⟩
  dots := List.isChain_cons_cons.mpr ⟨fun _ => follows, h.dots⟩
  opens := List.isChain_cons_cons.mpr ⟨nofun, h.opens⟩
  last := by simpa using h.last

/-- An opening bracket in front of a word or a question mark. -/
theorem angle {t : Token} (h : Tidy symbols (t :: ts)) (among : "<" ∈ symbols)
    (follows : t.isWord = true ∨ t.isSymbol "?" = true) :
    Tidy symbols (.ofSymbol "<" :: t :: ts) where
  plain := List.forall_mem_cons.mpr ⟨.symbol [] among, h.plain⟩
  dots := List.isChain_cons_cons.mpr ⟨nofun, h.dots⟩
  opens := List.isChain_cons_cons.mpr ⟨fun _ => follows, h.opens⟩
  last := by simpa using h.last

theorem ite {c : Prop} [Decidable c] (h : Tidy symbols ts) :
    Tidy symbols (if c then ts else []) := by
  split
  · exact h
  · exact nil

end Token.Tidy

open Token.Tidy (nil)

theorem DottedName.tidy_tokens (n : DottedName) : Token.Tidy separators n.tokens :=
  (Token.Tidy.flatMap fun i _ => (nil.identifier i).dot (by decide) (.inl rfl)).identifier n.first

mutual

theorem TypeExpr.tidy_tokens : (t : TypeExpr) → Token.Tidy declarationSymbols t.tokens
  | .primitive p => by
    rw [TypeExpr.tokens]
    exact nil.word p.text (by cases p <;> decide)
  | .named name => by
    rw [TypeExpr.tokens]
    exact name.tidy_tokens.mono separators_subset
  | .generic base arguments => by
    have inside := arguments.tidy_tokens.append (nil.symbol ">" (by decide))
    obtain ⟨u, us, eq, start⟩ := arguments.tokens_starts
    rw [eq, List.cons_append] at inside
    rw [TypeExpr.tokens, eq, List.cons_append]
    exact (base.tidy_tokens.mono separators_subset).append (inside.angle (by decide) start)
  | .array element => by
    rw [TypeExpr.tokens]
    exact element.tidy_tokens.append ((nil.symbol "]" (by decide)).symbol "[" (by decide))

theorem TypeArgument.tidy_tokens : (a : TypeArgument) → Token.Tidy declarationSymbols a.tokens
  | .type t => by
    rw [TypeArgument.tokens]
    exact t.tidy_tokens
  | .any => by
    rw [TypeArgument.tokens]
    exact nil.symbol "?" (by decide)
  | .upper bound => by
    rw [TypeArgument.tokens]
    exact (bound.tidy_tokens.word "extends" (by decide)).symbol "?" (by decide)
  | .lower bound => by
    rw [TypeArgument.tokens]
    exact (bound.tidy_tokens.word "super" (by decide)).symbol "?" (by decide)

theorem TypeArguments.tidy_tokens : (as : TypeArguments) → Token.Tidy declarationSymbols as.tokens
  | .last argument => by
    rw [TypeArguments.tokens]
    exact argument.tidy_tokens
  | .cons argument more => by
    rw [TypeArguments.tokens]
    exact argument.tidy_tokens.append (more.tidy_tokens.symbol "," (by decide))

end

end ChangeImpact.Java
