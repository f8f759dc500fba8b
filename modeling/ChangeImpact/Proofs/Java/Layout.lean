import ChangeImpact.Java.Token
import ChangeImpact.Java.Declaration

/-!
# Sources with the same tokens

Two sources have the same tokens if they differ in their layout only. Two things are
counted as part of the tokens here. Some tokens in a row are one token of the language if
nothing stands between them, such as `>` and `>`: they must be close together in both
sources or in neither. And the name of an annotation tells whether a method is a test, so
what stands behind a dot in it must be the same.

Names are cut out of a source as they stand there. So what is known of the names in two
such sources is where they were cut out.

## Main definitions

* `Token.relaid`: a token with other layout in front of it.
* `SameTokens`: two lists of tokens differ in layout only.
* `SourcePair`, `SourcePair.At`: two sources with the same tokens, and a place in both.
* `SourcePair.Segment`, `SourcePair.Path`: two names stand at one place of both sources.

## Main statements

* `SameTokens.drop`: what follows in both has the same tokens too.
* `simpleName_textOf`: the last segment of a name depends on what follows a dot alone.
-/

namespace ChangeImpact.Java

namespace Token

def relaid (t : Token) (layout : List Char) : Token := { t with layout }

section Relaid

variable (t : Token) (layout : List Char)

@[simp] theorem relaid_kind : (t.relaid layout).kind = t.kind := rfl

@[simp] theorem relaid_text : (t.relaid layout).text = t.text := rfl

@[simp] theorem relaid_isWord : (t.relaid layout).isWord = t.isWord := rfl

@[simp] theorem relaid_isWordOf (text : String) :
    (t.relaid layout).isWordOf text = t.isWordOf text := rfl

@[simp] theorem relaid_isSymbol (text : String) :
    (t.relaid layout).isSymbol text = t.isSymbol text := rfl

end Relaid

/-- Whether a token and what stands in front of it, the last token first, are read as one
token of the language where no layout parts them. -/
def fuses (before : List Token) (t : Token) : Bool :=
  match before with
  | [] => false
  | last :: more =>
    last.isSymbol ">" && (t.isSymbol ">" || t.isSymbol "=")
      || last.isSymbol "@interface" && t.isWord
      || last.isWordOf "non" && t.isSymbol "-"
      || last.isSymbol "-" && more.head?.any (·.isWordOf "non") && t.isWordOf "sealed"

/-- Whether the tokens, the last one being given first, end with a dot in the name of an
annotation. -/
def inAnnotationName : List Token → Bool
  | dot :: segment :: before =>
    dot.isSymbol "." && segment.isWord
      && (before.head?.any (·.isSymbol "@") || inAnnotationName before)
  | _ => false

def beginsAnnotation (t : Token) : Bool := t.isSymbol "@" || t.isSymbol "@interface"

end Token

/-- Two lists of tokens that follow the same tokens differ in layout only. Tokens that may be read
as one are adjacent in both or in neither, and what stands behind a dot in the name of an
annotation is the same. -/
inductive SameTokens : List Token → List Token → List Token → Prop
  | nil (before : List Token) : SameTokens before [] []
  | cons {before ts ts' : List Token} (t : Token) (layout : List Char)
      (close : t.fuses before = true → (t.relaid layout).adjacent = t.adjacent)
      (marked : Token.inAnnotationName before = true → layout = t.layout)
      (more : SameTokens (t :: before) ts ts') :
      SameTokens before (t :: ts) (t.relaid layout :: ts')

namespace SameTokens

variable {before ts ts' : List Token}

theorem refl (before ts : List Token) : SameTokens before ts ts := by
  induction ts generalizing before with
  | nil => exact .nil before
  | cons t ts ih => exact .cons t t.layout (fun _ => rfl) (fun _ => rfl) (ih (t :: before))

theorem length_eq (h : SameTokens before ts ts') : ts.length = ts'.length := by
  induction h with
  | nil => rfl
  | cons t layout _ _ _ ih => simp [ih]

theorem cons_iff {t t' : Token} :
    SameTokens before (t :: ts) (t' :: ts') ↔
      t' = t.relaid t'.layout ∧ (t.fuses before = true → t'.adjacent = t.adjacent) ∧
        (Token.inAnnotationName before = true → t'.layout = t.layout) ∧
        SameTokens (t :: before) ts ts' := by
  constructor
  · intro h
    cases h with
    | cons _ layout close marked more => exact ⟨rfl, close, marked, more⟩
  · rintro ⟨eq, close, marked, more⟩
    rw [eq] at close ⊢
    exact .cons t t'.layout close marked more

instance decidable : (before ts ts' : List Token) → Decidable (SameTokens before ts ts')
  | before, [], [] => .isTrue (.nil before)
  | _, [], _ :: _ => .isFalse fun h => nomatch h.length_eq
  | _, _ :: _, [] => .isFalse fun h => nomatch h.length_eq
  | before, t :: ts, _ :: ts' =>
    have := decidable (t :: before) ts ts'
    decidable_of_iff _ cons_iff.symm

theorem drop (h : SameTokens before ts ts') (n : Nat) :
    SameTokens ((ts.take n).reverse ++ before) (ts.drop n) (ts'.drop n) := by
  induction n generalizing before ts ts' with
  | zero => simpa using h
  | succ n ih =>
    cases h with
    | nil => exact .nil _
    | cons t layout _ _ more => simpa using ih more

theorem take (h : SameTokens before ts ts') (n : Nat) :
    SameTokens before (ts.take n) (ts'.take n) := by
  induction h generalizing n with
  | nil before => simpa using SameTokens.nil before
  | cons t layout close marked _ ih =>
    cases n with
    | zero => exact .nil _
    | succ n => exact .cons t layout close marked (ih n)

/-- Where the first list is cut, the second can be cut too. What stands before a place is listed
from its end, so the first part is turned round. -/
theorem append_inv {us vs : List Token} (h : SameTokens before (us ++ vs) ts') :
    ∃ us' vs', ts' = us' ++ vs' ∧ SameTokens (us.reverse ++ before) vs vs' := by
  have rest := h.drop us.length
  rw [List.take_left, List.drop_left] at rest
  exact ⟨_, _, (List.take_append_drop us.length ts').symm, rest⟩

end SameTokens

/-- Two sources with the same tokens. -/
structure SourcePair where
  left : List Token
  right : List Token
  same : SameTokens [] left right

namespace SourcePair

/-- The same place in both sources: what stands before it in the first one, the last token first,
and what follows in either. -/
structure At (P : SourcePair) (before ts ts' : List Token) : Prop where
  left_eq : P.left = before.reverse ++ ts
  right_eq : ts' = P.right.drop before.length

/-- What follows some place of both sources. -/
def Ahead (P : SourcePair) (ts ts' : List Token) : Prop := ∃ before, P.At before ts ts'

variable {P : SourcePair} {before ts ts' : List Token}

theorem at_start (P : SourcePair) : P.At [] P.left P.right := ⟨rfl, rfl⟩

namespace At

theorem take_left (h : P.At before ts ts') : P.left.take before.length = before.reverse := by
  rw [h.left_eq, List.take_left' List.length_reverse]

theorem drop_left (h : P.At before ts ts') : P.left.drop before.length = ts := by
  rw [h.left_eq, List.drop_left' List.length_reverse]

/-- The sources have the same tokens from the start, so they have from any place on. -/
theorem sameTokens (h : P.At before ts ts') : SameTokens before ts ts' := by
  have rest := P.same.drop before.length
  rwa [h.take_left, h.drop_left, ← h.right_eq, List.reverse_reverse, List.append_nil] at rest

theorem length_eq (h : P.At before ts ts') : ts.length = ts'.length := h.sameTokens.length_eq

theorem eq_nil (h : P.At before [] ts') : ts' = [] := by
  simpa using h.length_eq.symm

/-- What follows a number of tokens in both. -/
theorem drop (h : P.At before ts ts') (n : Nat) :
    P.At ((ts.take n).reverse ++ before) (ts.drop n) (ts'.drop n) := by
  refine ⟨by simp [h.left_eq], ?_⟩
  rcases Nat.le_total n ts.length with le | le
  · rw [h.right_eq, List.drop_drop, List.length_append, List.length_reverse,
      List.length_take_of_le le, Nat.add_comm]
  · rw [List.drop_of_length_le (h.length_eq ▸ le), eq_comm, List.drop_eq_nil_iff,
      List.take_of_length_le le]
    have total := P.same.length_eq
    rw [h.left_eq] at total
    simp only [List.length_append, List.length_reverse] at total ⊢
    omega

/-- The first tokens of two lists that are not empty. -/
theorem cons_inv {t : Token} {rest : List Token} (h : P.At before (t :: rest) ts') :
    ∃ layout rest', ts' = t.relaid layout :: rest' ∧
      (t.fuses before = true → (t.relaid layout).adjacent = t.adjacent) ∧
      (Token.inAnnotationName before = true → layout = t.layout) ∧
      P.At (t :: before) rest rest' := by
  have next := h.drop 1
  have same := h.sameTokens
  cases same with
  | cons _ layout close marked _ => exact ⟨layout, _, rfl, close, marked, by simpa using next⟩

/-- What is cut out at a place, counted from the start of both sources. -/
theorem exists_cut (h : P.At before ts ts') (n : Nat) :
    ∃ k ≤ P.left.length, ∃ m ≤ P.left.length,
      ts.take n = (P.left.drop k).take m ∧ ts'.take n = (P.right.drop k).take m := by
  have total := congrArg List.length h.left_eq
  rw [List.length_append, List.length_reverse] at total
  have take_min (us : List Token) (short : us.length ≤ P.left.length) :
      us.take n = us.take (min n P.left.length) := by
    rw [List.take_eq_take_iff]
    omega
  refine ⟨before.length, by omega, min n P.left.length, by omega, ?_, ?_⟩
  · rw [h.drop_left, take_min ts (by omega)]
  · rw [← h.right_eq, take_min ts' (by rw [← h.length_eq]; omega)]

/-- What follows a token in both. -/
theorem drop_succ (h : P.At before ts ts') {n : Nat} {t : Token} (at_n : ts[n]? = some t) :
    ∃ before', P.At (t :: before') (ts.drop (n + 1)) (ts'.drop (n + 1)) := by
  have rest := h.drop (n + 1)
  rw [List.take_add_one, at_n, Option.toList_some, List.reverse_append] at rest
  exact ⟨_, rest⟩

end At

namespace Ahead

theorem length_eq (h : P.Ahead ts ts') : ts.length = ts'.length := by
  obtain ⟨_, h⟩ := h
  exact h.length_eq

theorem drop (h : P.Ahead ts ts') (n : Nat) : P.Ahead (ts.drop n) (ts'.drop n) := by
  obtain ⟨_, h⟩ := h
  exact ⟨_, h.drop n⟩

end Ahead

/-- The two forms of what follows a place. -/
inductive View (P : SourcePair) : List Token → List Token → Prop
  | nil : View P [] []
  | cons (t : Token) (layout : List Char) {rest rest' : List Token}
      (more : P.Ahead rest rest') : View P (t :: rest) (t.relaid layout :: rest')

/-- The first token ahead decides on most rules, and its layout is the only difference. -/
theorem Ahead.view (h : P.Ahead ts ts') : View P ts ts' := by
  obtain ⟨before, h⟩ := h
  cases ts with
  | nil =>
    obtain rfl := h.eq_nil
    exact .nil
  | cons t rest =>
    obtain ⟨layout, rest', rfl, -, -, more⟩ := h.cons_inv
    exact .cons t layout ⟨_, more⟩

/-- The three forms where two tokens decide. -/
inductive View₂ (P : SourcePair) : List Token → List Token → Prop
  | nil : View₂ P [] []
  | one (t : Token) (layout : List Char) : View₂ P [t] [t.relaid layout]
  | two (t u : Token) (layout layout' : List Char) {rest rest' : List Token}
      (more : P.Ahead rest rest') :
      View₂ P (t :: u :: rest) (t.relaid layout :: u.relaid layout' :: rest')

theorem Ahead.view₂ (h : P.Ahead ts ts') : View₂ P ts ts' := by
  cases h.view with
  | nil => exact .nil
  | cons t layout more =>
    cases more.view with
    | nil => exact .one t layout
    | cons u layout' rest => exact .two t u layout layout' rest

end SourcePair

/-! ## The last segment of a name -/

theorem Token.source_append (ts us : List Token) :
    Token.source (ts ++ us) = Token.source ts ++ Token.source us := by
  induction ts with
  | nil => rfl
  | cons t ts ih => simp [Token.source, ih]

/-- What stands in front of a separator does not matter for what follows the last one. -/
theorem listAfterLast_append_cons_eq (c : Char) (as bs : List Char) :
    Text.listAfterLast c (as ++ c :: bs) = Text.listAfterLast c (c :: bs) := by
  simp only [Text.listAfterLast, List.reverse_append, List.reverse_cons, List.append_assoc,
    List.takeWhile_append]
  simp

/-- The last segment of a text depends on what follows a dot alone. -/
theorem simpleName_textOf {dot : Token} (isDot : dot.isSymbol "." = true)
    (front back : List Token) :
    simpleName (Token.textOf (front ++ dot :: back))
      = String.ofList (Text.listAfterLast '.' ('.' :: Token.source back)) := by
  have spelled : dot.text = "." := by
    simp only [Token.isSymbol, Bool.and_eq_true, beq_iff_eq] at isDot
    exact isDot.2
  obtain ⟨chars, split⟩ : ∃ chars, (Token.textOf (front ++ dot :: back)).toList
      = chars ++ '.' :: Token.source back := by
    cases front with
    | nil => exact ⟨[], by simp [Token.textOf, spelled]⟩
    | cons t ts =>
      refine ⟨t.text.toList ++ Token.source ts ++ dot.layout, ?_⟩
      simp [Token.textOf, Token.source_append, Token.source, spelled]
  rw [simpleName, Text.afterLast, split, listAfterLast_append_cons_eq]

def NamedAlike (name name' : String) : Prop := simpleName name = simpleName name'

/-! ## Names that are cut out -/

/-- Tokens that end with a segment of a name: a single token, or what stands behind a dot. That is
one token, unless the segment has annotations in front of it. -/
inductive EndsWithSegment : List Token → Prop
  | single (t : Token) : EndsWithSegment [t]
  | behindDot (front : List Token) {dot : Token} (isDot : dot.isSymbol "." = true) (t : Token)
      (more : List Token) (whole : more = [] ∨ t.beginsAnnotation = true) :
      EndsWithSegment (front ++ dot :: t :: more)

/-- A word, and further ones behind dots. -/
inductive IsDotted : List Token → Prop
  | word (t : Token) (isWord : t.isWord = true) : IsDotted [t]
  | segment {ts : List Token} {dot t : Token} (front : IsDotted ts)
      (isDot : dot.isSymbol "." = true) (isWord : t.isWord = true) : IsDotted (ts ++ [dot, t])

/-- Whether the tokens, the last one being given first, end in the name of a package or of an
import. -/
def Token.endsInPath (before : List Token) : Bool :=
  (before.takeWhile fun s => s.isWord || s.isSymbol ".").any fun s =>
    s.isWordOf "package" || s.isWordOf "import"

theorem Token.endsInPath_cons {t : Token} {before : List Token}
    (part : (t.isWord || t.isSymbol ".") = true) (h : endsInPath before = true) :
    endsInPath (t :: before) = true := by
  rw [endsInPath] at h ⊢
  rw [List.takeWhile_cons, if_pos part, List.any_cons, h, Bool.or_true]

theorem Token.endsInPath_of_isWordOf {t : Token} {before : List Token}
    (h : t.isWordOf "package" = true ∨ t.isWordOf "import" = true) :
    endsInPath (t :: before) = true := by
  have isWord : t.isWord = true := by
    rcases h with h | h <;> exact ((Bool.and_eq_true _ _).mp h).1
  rw [endsInPath, List.takeWhile_cons, if_pos (by simp [isWord])]
  rcases h with h | h <;> simp [h]

theorem IsDotted.ne_nil {ts : List Token} (h : IsDotted ts) : ts ≠ [] := by
  cases h <;> simp

/-- All of a dotted name lies in the name of a package or an import if its beginning does. -/
theorem IsDotted.endsInPath {ts before : List Token} (h : IsDotted ts)
    (inPath : Token.endsInPath before = true) :
    Token.endsInPath (ts.reverse ++ before) = true := by
  induction h with
  | word t isWord => exact Token.endsInPath_cons (by simp [isWord]) inPath
  | segment _ isDot isWord ih =>
    rw [List.reverse_append]
    exact Token.endsInPath_cons (by simp [isWord]) (Token.endsInPath_cons (by simp [isDot]) ih)

namespace SourcePair

variable (P : SourcePair)

/-- Two names are the same, or they are the last segments of what stands at one place of both
sources. -/
def Segment (name name' : String) : Prop :=
  name = name' ∨ ∃ before ts ts' n, P.At before ts ts' ∧ EndsWithSegment (ts.take n) ∧
    name = simpleName (Token.textOf (ts.take n)) ∧ name' = simpleName (Token.textOf (ts'.take n))

/-- Two names are the same, or they stand at one place of both sources behind the keyword of a
package or of an import. -/
def Path (name name' : String) : Prop :=
  name = name' ∨ ∃ before ts ts' n, P.At before ts ts' ∧ Token.endsInPath before = true ∧
    IsDotted (ts.take n) ∧ name = Token.textOf (ts.take n) ∧ name' = Token.textOf (ts'.take n)

instance : Std.Refl P.Segment := ⟨fun _ => .inl rfl⟩

instance : Std.Refl P.Path := ⟨fun _ => .inl rfl⟩

variable {P}

/-- A name is spelled alike in both sources if it is wherever it can be cut out. -/
theorem Segment.eq_of_cuts {name name' : String} (h : P.Segment name name')
    (cuts : ∀ k ≤ P.left.length, ∀ m ≤ P.left.length,
      simpleName (Token.textOf ((P.left.drop k).take m)) = name →
        simpleName (Token.textOf ((P.right.drop k).take m)) = name) : name = name' := by
  rcases h with rfl | ⟨before, ts, ts', n, place, -, left, right⟩
  · rfl
  · obtain ⟨k, k_le, m, m_le, left_eq, right_eq⟩ := place.exists_cut n
    rw [left_eq] at left
    rw [right, right_eq, cuts k k_le m m_le left.symm]

end SourcePair

end ChangeImpact.Java
