import ChangeImpact.Java.Extraction
import ChangeImpact.Proofs.Java.NameLayout
import ChangeImpact.Proofs.Java.Statements

/-!
# Units do not depend on layout

The unit of a source depends on its tokens alone, but for the names of packages, imports
and types, which are cut out of the source with the layout inside them. A blank inside such
a name is kept, and then it makes another name.

## Main definitions

* `SourceUnit.Alike`: two units are the same, but for names that stand at the same places of
  two sources.

## Main statements

* `Grammar.ofDepth_uniform`: no rule of the grammar sees the layout.
* `SourceUnit.ofText_sameTokens`: sources with the same tokens are accepted alike, and have
  units that are alike. If they differ only in layout that no name keeps, the units are equal.
* `SourceUnit.ofText_blank_in_import`: layout behind a dot does matter.
-/

namespace ChangeImpact.Java

open ChangeImpact.Java.Parser

/-! ## The whole grammar -/

namespace Grammar

instance nothing_uniform : Uniform nothing where
  typeArgument _ := inferInstanceAs (Alike _ _ fail)
  elementValue _ := inferInstanceAs (Alike _ _ fail)
  expression _ _ := inferInstanceAs (Alike _ _ fail)
  initializer _ := inferInstanceAs (Alike _ _ fail)
  recordPattern _ := inferInstanceAs (Alike _ _ fail)
  statement _ := inferInstanceAs (Alike _ _ fail)
  member _ _ := inferInstanceAs (Alike _ _ fail)

instance next_uniform (g : Grammar) [g.Uniform] : g.next.Uniform where
  typeArgument _ := typeArgumentRule_alike g
  elementValue _ := elementValueRule_reads g
  expression _ := expressionRule_reads g
  initializer _ := initializerRule_reads g
  recordPattern _ := recordPatternRule_reads g
  statement _ := statementRule_reads g
  member _ := memberRule_alike g

instance ofDepth_uniform (depth : Nat) : (ofDepth depth).Uniform := by
  induction depth with
  | zero => exact nothing_uniform
  | succ depth ih => exact next_uniform (ofDepth depth)

end Grammar

/-! ## Well-formed sources -/

variable {P : SourcePair}

/-- Two sources have items that are alike, and both or neither declare a test. -/
structure Source.Alike (P : SourcePair) (s s' : Source) : Prop where
  items : List.Forall₂ (Item.Alike P) s.items s'.items
  declaresTest_eq : s.declaresTest = s'.declaresTest

/-- The depth of the grammar is bounded by the number of tokens, which is the same. -/
theorem Source.parseTokens_agree (P : SourcePair) :
    Option.Rel (Source.Alike P) (parseTokens P.left).toOption (parseTokens P.right).toOption := by
  have agree := (Grammar.item_alike (Grammar.ofDepth (P.left.length + 1)) true).agree.toEnd
    P.left P.right ⟨[], P.at_start⟩
  unfold parseTokens
  rw [← P.same.length_eq]
  cases agree with
  | neither left right =>
    rw [Parser.run] at left right
    simp only [left, right]
    exact .none
  | both items items' tests n left right alikes =>
    rw [Parser.run] at left right
    simp only [left, right]
    exact .some ⟨alikes, rfl⟩

/-! ## Units -/

/-- Two fields are the same, but for the places of the class names in their types. -/
structure Field.Alike (P : SourcePair) (f f' : Field) : Prop where
  annotations_eq : f.annotations = f'.annotations
  isFinal_eq : f.isFinal = f'.isFinal
  typeNames : List.Forall₂ P.Segment f.typeNames f'.typeNames

/-- Two units are the same, but for names that stand at the same places of two sources. -/
structure SourceUnit.Alike (P : SourcePair) (u u' : SourceUnit) : Prop where
  path_eq : u.path = u'.path
  packageName? : Option.Rel P.Path u.packageName? u'.packageName?
  typeName_eq : u.typeName = u'.typeName
  annotations_eq : u.annotations = u'.annotations
  imports : List.Forall₂ P.Path u.imports u'.imports
  fields : List.Forall₂ (Field.Alike P) u.fields u'.fields
  parameterTypes : List.Forall₂ P.Segment u.parameterTypes u'.parameterTypes
  declaresTest_eq : u.declaresTest = u'.declaresTest

section Members

variable {ms ms' : List Member} (h : List.Forall₂ (Member.Alike P) ms ms')

include h

theorem Member.fields_alike :
    List.Forall₂ (Field.Alike P) (Member.fields ms) (Member.fields ms') := by
  refine List.rel_filterMap (fun m m' alike => ?_) h
  cases alike with
  | field modifiers types =>
    exact .some ⟨modifiers.annotations_eq, modifiers.isFinal_eq, types.names⟩
  | constructor | other => exact .none

theorem Member.parameterTypes_alike :
    List.Forall₂ P.Segment (Member.parameterTypes ms) (Member.parameterTypes ms') := by
  refine List.rel_flatMap h fun m m' alike => ?_
  cases alike with
  | constructor types => exact TypeRef.Alike.flatMap_names types
  | field | other => exact .nil

end Members

/-- What is found first in lists of related items is related. -/
theorem rel_findSome? {α β : Type} {R : α → α → Prop} {S : β → β → Prop} {f : α → Option β}
    (related : ∀ a a', R a a' → Option.Rel S (f a) (f a')) {as as' : List α}
    (h : List.Forall₂ R as as') : Option.Rel S (as.findSome? f) (as'.findSome? f) := by
  induction h with
  | nil => exact .none
  | @cons a a' as as' first _ ih =>
    rw [List.findSome?_cons, List.findSome?_cons]
    have found := related a a' first
    generalize f a = o, f a' = o' at found
    cases found with
    | none => exact ih
    | some same => exact .some same

namespace Source.Alike

variable {s s' : Source} (h : s.Alike P s')

include h

theorem package?_rel : Option.Rel P.Path s.package? s'.package? := by
  refine rel_findSome? (fun i i' alike => ?_) h.items
  cases alike with
  | package same => exact .some same
  | imported | type | other => exact .none

theorem imports_rel : List.Forall₂ P.Path s.imports s'.imports := by
  refine List.rel_filterMap (fun i i' alike => ?_) h.items
  cases alike with
  | imported isStatic onDemand same =>
    cases isStatic <;> cases onDemand <;> constructor
    exact same
  | package | type | other => exact .none

theorem firstType?_rel : Option.Rel (TypeDeclaration.Alike P) s.firstType? s'.firstType? := by
  refine rel_findSome? (fun i i' alike => ?_) h.items
  cases alike with
  | @type d d' alike =>
    simp only [alike.kind_eq]
    split
    · exact .none
    · exact .some alike
  | package | imported | other => exact .none

theorem ofSource_rel (path : String) :
    Option.Rel (SourceUnit.Alike P) (SourceUnit.ofSource path s) (SourceUnit.ofSource path s') := by
  have types := h.firstType?_rel
  unfold SourceUnit.ofSource
  generalize s.firstType? = d, s'.firstType? = d' at types
  cases types with
  | none => exact .none
  | some alike =>
    exact .some {
      path_eq := rfl
      packageName? := h.package?_rel
      typeName_eq := alike.name_eq
      annotations_eq := alike.modifiers.annotations_eq
      imports := h.imports_rel
      fields := Member.fields_alike alike.members
      parameterTypes := List.rel_append (TypeRef.Alike.flatMap_names alike.components)
        (Member.parameterTypes_alike alike.members)
      declaresTest_eq := h.declaresTest_eq }

end Source.Alike

/-- Both sources are rejected, or neither declares a type, or their units are alike. -/
theorem SourceUnit.ofText_rel (path : String) {text text' : String}
    (same : SameTokens [] (Lexer.tokens text.toList) (Lexer.tokens text'.toList)) :
    Option.Rel (Option.Rel (Alike ⟨_, _, same⟩)) (ofText path text).toOption
      (ofText path text').toOption := by
  have sources := Source.parseTokens_agree ⟨_, _, same⟩
  rw [ofText, ofText, Source.parse, Source.parse]
  generalize Source.parseTokens (Lexer.tokens text.toList) = s,
    Source.parseTokens (Lexer.tokens text'.toList) = s' at sources
  cases s with
  | error place =>
    cases s' with
    | error place' => exact .none
    | ok s' => cases sources
  | ok s =>
    cases s' with
    | error place' => cases sources
    | ok s' =>
      cases sources with
      | some alike => exact .some (alike.ofSource_rel path)

/-! ## Equal units -/

theorem eq_of_forall₂ {α : Type} {R : α → α → Prop} {as as' : List α} (h : List.Forall₂ R as as')
    (eq : ∀ a ∈ as, ∀ a', R a a' → a = a') : as = as' := by
  induction h with
  | nil => rfl
  | cons first _ ih =>
    rw [List.forall_mem_cons] at eq
    rw [eq.1 _ first, ih eq.2]

theorem eq_of_optionRel {α : Type} {R : α → α → Prop} {o o' : Option α} (h : Option.Rel R o o')
    (eq : ∀ a ∈ o, ∀ a', R a a' → a = a') : o = o' := by
  cases h with
  | none => rfl
  | some related => rw [eq _ rfl _ related]

/-- Wherever the first source spells a name that a unit holds, the second one spells it alike. -/
structure SourceUnit.SpelledAlike (P : SourcePair) (u : SourceUnit) : Prop where
  package : ∀ name ∈ u.packageName?, ∀ name', P.Path name name' → name = name'
  imports : ∀ name ∈ u.imports, ∀ name', P.Path name name' → name = name'
  fields : ∀ f ∈ u.fields, ∀ name ∈ f.typeNames, ∀ name', P.Segment name name' → name = name'
  parameters : ∀ name ∈ u.parameterTypes, ∀ name', P.Segment name name' → name = name'

namespace SourceUnit

/-- If no layout differs that a name keeps, every name is spelled alike. -/
theorem SpelledAlike.of_relaid (same : Relaid [] P.left P.right) (u : SourceUnit) :
    u.SpelledAlike P where
  package _ _ _ := SourcePair.Path.eq_of_relaid same
  imports _ _ _ := SourcePair.Path.eq_of_relaid same
  fields _ _ _ _ _ := SourcePair.Segment.eq_of_relaid same
  parameters _ _ _ := SourcePair.Segment.eq_of_relaid same

/-- Alike units differ in names only, and a name is spelled alike wherever it was cut out. -/
theorem Alike.eq_of_spelledAlike {u u' : SourceUnit} (h : u.Alike P u')
    (spelled : u.SpelledAlike P) : u = u' := by
  have fields_eq : u.fields = u'.fields := by
    refine eq_of_forall₂ h.fields fun f mem f' alike => ?_
    have names_eq := eq_of_forall₂ alike.typeNames (spelled.fields f mem)
    rw [Field.mk.injEq]
    exact ⟨alike.annotations_eq, alike.isFinal_eq, names_eq⟩
  rw [SourceUnit.mk.injEq]
  exact ⟨h.path_eq, eq_of_optionRel h.packageName? spelled.package, h.typeName_eq,
    h.annotations_eq, eq_of_forall₂ h.imports spelled.imports, fields_eq,
    eq_of_forall₂ h.parameterTypes spelled.parameters, h.declaresTest_eq⟩

end SourceUnit

theorem Source.Alike.ofSource_eq (same : Relaid [] P.left P.right) {s s' : Source}
    (h : s.Alike P s') (path : String) :
    SourceUnit.ofSource path s = SourceUnit.ofSource path s' :=
  eq_of_optionRel (h.ofSource_rel path) fun u _ _ alike =>
    alike.eq_of_spelledAlike (.of_relaid same u)

theorem toOption_eq_some_iff {ε α : Type} {result : Except ε α} {a : α} :
    result.toOption = some a ↔ result = .ok a := by
  cases result <;> simp [Except.toOption]

namespace SourceUnit

variable (path : String) {text text' : String}

theorem ofText_eq_of_spelledAlike
    (same : SameTokens [] (Lexer.tokens text.toList) (Lexer.tokens text'.toList)) {u : SourceUnit}
    (spelled : u.SpelledAlike ⟨_, _, same⟩) (read : ofText path text = .ok (some u)) :
    ofText path text' = .ok (some u) := by
  have units := ofText_rel path same
  rw [toOption_eq_some_iff.2 read] at units
  rw [← toOption_eq_some_iff]
  generalize (ofText path text').toOption = result at units
  cases units with
  | some units =>
    cases units with
    | some alike => rw [alike.eq_of_spelledAlike spelled]

/-- Two such sources cannot be told apart by their units. -/
theorem ofText_eq_ok_iff_of_relaid
    (same : Relaid [] (Lexer.tokens text.toList) (Lexer.tokens text'.toList))
    (unit? : Option SourceUnit) :
    ofText path text = .ok unit? ↔ ofText path text' = .ok unit? := by
  have units_eq : (ofText path text).toOption = (ofText path text').toOption := by
    refine eq_of_optionRel (ofText_rel path same.sameTokens) fun _ _ _ units => ?_
    refine eq_of_optionRel units fun u _ _ alike => ?_
    exact alike.eq_of_spelledAlike (.of_relaid same u)
  rw [← toOption_eq_some_iff, ← toOption_eq_some_iff, units_eq]

end SourceUnit

/-- Sources with the same tokens are accepted alike, and their units are the same but for names
that are cut out at the same places. The units are equal if the names in the first one are spelled
alike in both sources, and so they are if the sources differ only in layout that no name keeps. -/
theorem SourceUnit.ofText_sameTokens (path text text' : String) :
    (∀ same : SameTokens [] (Lexer.tokens text.toList) (Lexer.tokens text'.toList),
      Option.Rel (Option.Rel (Alike ⟨_, _, same⟩)) (ofText path text).toOption
        (ofText path text').toOption ∧
      ∀ u : SourceUnit, u.SpelledAlike ⟨_, _, same⟩ → ofText path text = .ok (some u) →
        ofText path text' = .ok (some u)) ∧
    (Relaid [] (Lexer.tokens text.toList) (Lexer.tokens text'.toList) → ∀ unit?,
      ofText path text = .ok unit? ↔ ofText path text' = .ok unit?) :=
  ⟨fun same => ⟨ofText_rel path same, fun _ => ofText_eq_of_spelledAlike path same⟩,
    ofText_eq_ok_iff_of_relaid path⟩

/-! ## Layout that matters and layout that does not -/

/-- A class that is given its orders. -/
def cart : String := "import shop.Order;\nclass Cart \x7b\n  @Autowired List<Order> all;\n\x7d\n"

/-- The same class with other layout between its tokens, but none in a name. -/
def cartReformatted : String :=
  "import /* all */ shop.Order; class Cart\n\x7b @Autowired // given\nList < Order > all;\x7d"

def cartUnit : SourceUnit where
  path := "Cart.java"
  typeName := "Cart"
  imports := ["shop.Order"]
  fields := [{ annotations := ["Autowired"], typeNames := ["List", "Order"] }]

/-- A class with a field whose first value is computed. -/
def bag : String := "class Bag \x7b Sum s=t.r; \x7d"

/-- The same class with a blank behind the dot in the expression. -/
def bagSpread : String := "class Bag \x7b Sum s=t. r; \x7d"

def bagUnit : SourceUnit where
  path := "Bag.java"
  typeName := "Bag"
  fields := [{ typeNames := ["Sum"] }]

theorem SourceUnit.ofText_reformatted :
    cart ≠ cartReformatted ∧ ofText "Cart.java" cartReformatted = .ok (some cartUnit) ∧
      bag ≠ bagSpread ∧ ofText "Bag.java" bagSpread = .ok (some bagUnit) := by
  have cartRead : ofText "Cart.java" cart = .ok (some cartUnit) :=
    toOption_eq_some_iff.1 (by decide +kernel)
  have bagRead : ofText "Bag.java" bag = .ok (some bagUnit) :=
    toOption_eq_some_iff.1 (by decide +kernel)
  have same : SameTokens [] (Lexer.tokens bag.toList) (Lexer.tokens bagSpread.toList) := by
    decide +kernel
  have cuts : ∀ k ≤ (Lexer.tokens bag.toList).length,
      ∀ m ≤ (Lexer.tokens bag.toList).length,
        simpleName (Token.textOf (((Lexer.tokens bag.toList).drop k).take m)) = "Sum" →
          simpleName (Token.textOf (((Lexer.tokens bagSpread.toList).drop k).take m)) = "Sum" := by
    decide +kernel
  have spelled : bagUnit.SpelledAlike ⟨_, _, same⟩ := by
    refine ⟨nofun, nofun, ?_, nofun⟩
    intro f mem name named _ segment
    obtain rfl := List.mem_singleton.1 mem
    obtain rfl := List.mem_singleton.1 named
    exact segment.eq_of_cuts cuts
  refine ⟨by decide, ?_, by decide, ?_⟩
  · exact ((ofText_sameTokens "Cart.java" cart _).2 (by decide +kernel) _).1 cartRead
  · exact ((ofText_sameTokens "Bag.java" bag _).1 same).2 bagUnit spelled bagRead

/-- A blank behind a dot becomes part of a name: with the same tokens, the class depends on
another one. -/
theorem SourceUnit.ofText_blank_in_import :
    let tight := "import com.shop.Order;\nclass Cart \x7b \x7d\n"
    let spread := "import com.shop. Order;\nclass Cart \x7b \x7d\n"
    (Lexer.tokens tight.toList).map (Token.relaid · [])
      = (Lexer.tokens spread.toList).map (Token.relaid · []) ∧
    ∃ u u', ofText "Cart.java" tight = .ok (some u) ∧ ofText "Cart.java" spread = .ok (some u') ∧
      (u.references "com.shop").toList = ["Order"] ∧
      (u'.references "com.shop").toList = [" Order"] := by
  refine ⟨by decide +kernel,
    { path := "Cart.java", typeName := "Cart", imports := ["com.shop.Order"] },
    { path := "Cart.java", typeName := "Cart", imports := ["com.shop. Order"] }, ?_, ?_, ?_, ?_⟩
  · exact toOption_eq_some_iff.1 (by decide +kernel)
  · exact toOption_eq_some_iff.1 (by decide +kernel)
  · decide
  · decide

end ChangeImpact.Java
