import ChangeImpact.Java.Extraction
import ChangeImpact.Proofs.Java.TypeReading

/-!
# Reading outlines

The tokens of an outline are a well-formed source, with any layout in front of closing brackets,
and the unit of the source is the unit of the outline. Nested classes are read by induction on how
often the grammar may refer to itself: each reference is behind a token, so the tokens of a member
are limit enough.

## Main statements

* `Outline.takes_member`: a member is taken, with all that is nested in it.
* `Outline.parseTokens_of_tight`: the tokens of an outline are well formed.
* `Outline.ofSource_items`: the unit of what was read is the unit of the outline.
-/

namespace ChangeImpact.Java

open ChangeImpact.Java.Parser ChangeImpact.Java.Outline

/-! ## All members -/

namespace Outline

open Grammar

def Member.kept : Outline.Member → Java.Member
  | .field annotations isFinal type _ => .field (declaredModifiers annotations isFinal) type.kept
  | .constructor _ parameters => .constructor (parameters.map (·.type.kept))
  | .method .. | .nested .. => .other

theorem simpleAnnotations_declaredModifiers (annotations : List DottedName) (isFinal : Bool) :
    (declaredModifiers annotations isFinal).simpleAnnotations = simpleNames annotations := by
  simp [Modifiers.simpleAnnotations, declaredModifiers, simpleNames,
    DottedName.simpleName_text]

/-- What a method returns is read as a type. -/
theorem exists_readsAsType_result {depth : Nat} {result? : Option TypeExpr}
    (fits : (resultTokens result?).length ≤ depth) {us : List Token}
    (spelled : us.map Token.tight = resultTokens result?) :
    ∃ type, ReadsAsType (ofDepth depth) us type := by
  cases result? with
  | none =>
    obtain rfl := eq_of_map_tight spelled (by simp [resultTokens])
    exact ⟨_, readsAsType_void _⟩
  | some type => exact ⟨_, type.readsAsType fits spelled⟩

/-- No member begins with a closing brace. -/
theorem Member.tokens_starts (m : Outline.Member) :
    ∃ t us, m.tokens = t :: us ∧ t.isSymbol "\x7d" = false := by
  have annotated (annotations : List DottedName) {ts : List Token}
      (begins : ∃ text us, ts = .ofWord text :: us) :
      ∃ t us, annotationTokens annotations ++ ts = t :: us ∧ t.isSymbol "\x7d" = false := by
    obtain ⟨text, us, rfl⟩ := begins
    cases annotations <;> exact ⟨_, _, rfl, rfl⟩
  cases m with
  | field annotations isFinal type name =>
    rw [Member.tokens]
    apply annotated
    obtain ⟨text, us, eq, -⟩ := type.beginsType
    cases isFinal with
    | false => exact ⟨text, us ++ [name.token, .ofSymbol ";"], by simp [eq]⟩
    | true => exact ⟨"final", _, rfl⟩
  | constructor name ps =>
    rw [Member.tokens]
    exact ⟨_, _, rfl, rfl⟩
  | method annotations result? name ps =>
    rw [Member.tokens]
    apply annotated
    cases result? with
    | none => exact ⟨"void", _, rfl⟩
    | some type =>
      obtain ⟨text, us, eq, -⟩ := type.beginsType
      exact ⟨text, _, by rw [resultTokens, eq]; rfl⟩
  | nested annotations name members =>
    rw [Member.tokens]
    exact annotated annotations ⟨"class", _, rfl⟩

theorem Member.tokensOfAll_eq (ms : List Outline.Member) :
    Member.tokensOfAll ms = ms.flatMap Member.tokens := by
  induction ms with
  | nil => rfl
  | cons m ms ih => rw [Member.tokensOfAll, ih, List.flatMap_cons]

theorem Member.anyDeclaresTest_eq (ms : List Outline.Member) :
    Member.anyDeclaresTest ms = ms.any Member.declaresTest := by
  induction ms with
  | nil => rfl
  | cons m ms ih => rw [Member.anyDeclaresTest, ih, List.any_cons]

theorem Member.length_tokens_le {ms : List Outline.Member} {m : Outline.Member} (mem : m ∈ ms) :
    m.tokens.length ≤ (Member.tokensOfAll ms).length := by
  rw [Member.tokensOfAll_eq]
  exact length_le_length_flatMap mem

/-- The members of a type are taken up to its closing brace, if each is. -/
theorem takes_members_of {depth : Nat} {ms : List Outline.Member}
    (each : ∀ m ∈ ms, ∀ {us : List Token}, us.map Token.tight = m.tokens → ∀ later,
      Takes (memberRule (ofDepth depth) .classBody) us later [m.kept] m.declaresTest)
    {us : List Token} (spelled : us.map Token.tight = Member.tokensOfAll ms) (rest : List Token) :
    Takes (upTo "\x7d" ((ofDepth (depth + 1)).member .classBody)) (us ++ [.ofSymbol "\x7d"]) rest
      (ms.map fun m => [m.kept]) (Member.anyDeclaresTest ms) := by
  rw [Member.tokensOfAll_eq] at spelled
  obtain ⟨items, rfl, rfl, spelledEach⟩ := exists_of_map_eq_flatMap spelled
  have starts : ∀ x ∈ items, ∃ t us, x.2 = t :: us ∧ t.isSymbol "\x7d" = false := by
    intro x mem
    obtain ⟨t, us, eq, other⟩ := x.1.tokens_starts
    obtain ⟨u, vs, first, rfl, -⟩ := List.map_eq_cons_iff.1 ((spelledEach x mem).trans eq)
    exact ⟨u, vs, first, u.isSymbol_tight _ ▸ other⟩
  rw [Member.anyDeclaresTest_eq, List.map_map, List.any_map]
  exact .upTo_flatMap items starts fun x mem =>
    each x.1 (List.mem_map_of_mem mem) (spelledEach x mem)

/-- Tokens that are tight like those of a type are those of a type, but for what comes before the
braces and what stands between them. -/
theorem exists_eq_typeTokens {annotations : List DottedName} {keyword : String} {name : Identifier}
    {us header body : List Token}
    (spelled : us.map Token.tight = typeTokens annotations keyword name header body) :
    ∃ hs bs, us = typeTokens annotations keyword name hs bs ∧ hs.map Token.tight = header ∧
      bs.map Token.tight = body := by
  obtain ⟨announced, rfl, behind⟩ :=
    exists_of_map_tight_append spelled (tidy_annotationTokens annotations).isSymbol_eq_false
  obtain ⟨named, rfl, behindKeyword⟩ := exists_of_map_tight_cons behind rfl
  obtain ⟨rest, rfl, behindName⟩ := exists_of_map_tight_cons behindKeyword rfl
  obtain ⟨hs, braces, rfl, before, opened⟩ := List.map_eq_append_iff.1 behindName
  obtain ⟨inner, rfl, closed⟩ := exists_of_map_tight_cons opened rfl
  obtain ⟨bs, rfl, inside⟩ := exists_of_map_tight_concat closed (by simp)
  exact ⟨hs, bs, rfl, before, inside⟩

/-- A member is taken by a grammar that may refer to itself as often as the member has tokens. -/
theorem takes_member (depth : Nat) (m : Outline.Member) (fits : m.tokens.length ≤ depth)
    {us : List Token} (spelled : us.map Token.tight = m.tokens) (rest : List Token) :
    Takes (memberRule (ofDepth depth) .classBody) us rest [m.kept] m.declaresTest := by
  -- on the depth and not on the member: nested members are read by the grammar one level down
  induction depth generalizing m us rest with
  | zero =>
    obtain ⟨t, us, eq, -⟩ := m.tokens_starts
    simp [eq] at fits
  | succ depth ih =>
    cases m with
    | field annotations isFinal type name =>
      rw [Member.tokens] at spelled fits
      simp only [List.length_append] at fits
      obtain ⟨modified, rfl, behind⟩ :=
        exists_of_map_tight_append spelled (tidy_annotationTokens annotations).isSymbol_eq_false
      obtain ⟨typed, rfl, declared⟩ :=
        exists_of_map_tight_append behind (by cases isFinal <;> simp)
      obtain ⟨ts, rfl, inside⟩ := exists_of_map_tight_concat declared (by simp [Identifier.token])
      rw [Member.declaresTest]
      exact takes_field _ annotations isFinal (type.readsAsType (by omega) inside) name rest
    | constructor name ps =>
      rw [Member.tokens] at spelled fits
      rw [List.length_cons, List.length_append] at fits
      obtain ⟨called, rfl, behind⟩ := exists_of_map_tight_cons spelled rfl
      obtain ⟨listed, rfl, inside⟩ := exists_of_map_tight_concat behind (by simp [emptyBody])
      have fitsInside : (parameterTokens ps).length ≤ depth + 1 := by omega
      have taken := takes_parameters fitsInside inside (emptyBody ++ rest)
      obtain ⟨vs, rfl, -⟩ := exists_of_map_tight_cons inside rfl
      rw [Member.declaresTest]
      exact takes_constructor _ taken name
    | method annotations result? name ps =>
      rw [Member.tokens] at spelled fits
      simp only [List.length_append, List.length_cons] at fits
      obtain ⟨typed, rfl, behind⟩ :=
        exists_of_map_tight_append spelled (tidy_annotationTokens annotations).isSymbol_eq_false
      obtain ⟨ts, called, rfl, result, named⟩ := List.map_eq_append_iff.1 behind
      have fitsResult : (resultTokens result?).length ≤ depth + 1 := by omega
      obtain ⟨type, reads⟩ := exists_readsAsType_result fitsResult result
      obtain ⟨listed, rfl, behindName⟩ := exists_of_map_tight_cons named rfl
      obtain ⟨us, rfl, inside⟩ := exists_of_map_tight_concat behindName (by simp [emptyBody])
      have fitsInside : (parameterTokens ps).length ≤ depth + 1 := by omega
      have taken := takes_parameters fitsInside inside (emptyBody ++ rest)
      obtain ⟨vs, rfl, -⟩ := exists_of_map_tight_cons inside rfl
      rw [Member.declaresTest, ← simpleAnnotations_declaredModifiers annotations false]
      exact takes_method _ taken annotations reads name
    | nested annotations name members =>
      rw [Member.tokens] at spelled fits
      simp only [typeTokens, List.length_append, List.length_cons] at fits
      obtain ⟨header, body, rfl, nothing, inside⟩ := exists_eq_typeTokens spelled
      obtain rfl := List.map_eq_nil_iff.1 nothing
      have fitsEach : ∀ m ∈ members, m.tokens.length ≤ depth := by
        intro m mem
        have shorter := Member.length_tokens_le mem
        omega
      rw [Member.declaresTest]
      exact takes_nested _ annotations name
        (takes_members_of (fun m mem _ => ih m (fitsEach m mem)) inside rest)

/-- The depth is bounded by the number of tokens, and no member has more of them than all together.
-/
theorem takes_members {depth : Nat} {ms : List Outline.Member}
    (fits : (Member.tokensOfAll ms).length ≤ depth) {us : List Token}
    (spelled : us.map Token.tight = Member.tokensOfAll ms) (rest : List Token) :
    Takes (upTo "\x7d" ((ofDepth (depth + 1)).member .classBody)) (us ++ [.ofSymbol "\x7d"]) rest
      (ms.map fun m => [m.kept]) (Member.anyDeclaresTest ms) :=
  takes_members_of (fun m mem _ => takes_member depth m ((Member.length_tokens_le mem).trans fits))
    spelled rest

/-! ## Whole sources -/

theorem takes_package (g : Grammar) (name : DottedName) (rest : List Token) :
    Takes (item g true) (.ofWord "package" :: (name.tokens ++ [.ofSymbol ";"])) rest
      (.package name.text) false := by
  have stops : run (do symbol "."; word) (.ofSymbol ";" :: rest) = none :=
    run_symbol_bind_eq_none rfl
  have rule : Takes packageRest (.ofWord "package" :: (name.tokens ++ [.ofSymbol ";"])) rest
      (.package name.text) false :=
    .keyword_bind (.bind (takes_qualifiedName name stops) (.symbol_bind (.pure _ rest)))
  exact .ahead_bind rule

theorem takes_import (g : Grammar) (i : Import) (rest : List Token) :
    Takes (item g true) i.tokens rest (.imported i.isStatic i.onDemand i.name.text) false := by
  obtain ⟨isStatic, onDemand, name⟩ := i
  have ending : Takes (do
      let onDemand ← when "." (do symbol "."; symbol "*")
      symbol ";"
      return Item.imported isStatic onDemand.isSome name.text)
      ((if onDemand then [.ofSymbol ".", .ofSymbol "*"] else []) ++ [.ofSymbol ";"]) rest
      (.imported isStatic onDemand name.text) false := by
    cases onDemand with
    | false => exact .when_bind rfl (.symbol_bind (.pure _ rest))
    | true =>
      have star : Takes (do symbol "."; symbol "*") [.ofSymbol ".", .ofSymbol "*"]
          (.ofSymbol ";" :: rest) () false :=
        .symbol_bind (.symbol "*" _)
      exact .bind (star.when rfl) (.symbol_bind (.pure _ rest))
  have stops : run (do symbol "."; word) ((if onDemand then [.ofSymbol ".", .ofSymbol "*"] else [])
      ++ [.ofSymbol ";"] ++ rest) = none := by
    cases onDemand with
    | false => exact run_symbol_bind_eq_none rfl
    | true =>
      refine run_bind_eq_none (Takes.symbol "." (.ofSymbol "*" :: .ofSymbol ";" :: rest)) ?_
      exact run_wordExcept_cons [] _ _
  have rule : Takes importRule (Import.tokens ⟨isStatic, onDemand, name⟩) rest
      (.imported isStatic onDemand name.text) false := by
    refine .keyword_bind ?_
    cases isStatic with
    | false =>
      have noStatic : (name.first.text == "static") = false := name.first.beq_eq_false (by decide)
      refine .whenWord_bind noStatic ?_
      change Takes _ (name.tokens ++ _) rest _ false
      exact .bind (takes_qualifiedName name stops) ending
    | true =>
      exact .bind ((Takes.keyword "static" _).whenWord rfl)
        (.bind (takes_qualifiedName name stops) ending)
  exact .ahead_bind rule

/-- A type that annotations stand in front of. -/
theorem takes_marked {g : Grammar} (n : DottedName) (ns : List DottedName) {keyword : String}
    (free : modifierWords.contains keyword = false) (name : Identifier) {us rest : List Token}
    {d : TypeDeclaration} {tests : Bool}
    (declared : Takes (declarationRest g true (declaredModifiers (n :: ns) false))
      (.ofWord keyword :: name.token :: us) rest (.type d) tests) :
    Takes (item g true) (annotationTokens (n :: ns) ++ .ofWord keyword :: name.token :: us) rest
      (.type d) tests := by
  have modified := (takes_modifiers g (n :: ns) false (us ++ rest) free rfl).bind declared
  rw [if_neg Bool.false_ne_true, List.append_nil] at modified
  have marked : symbolItem g true "@" = orElse (modifiedDeclaration g true)
      fun _ => nothingDeclared (expressionStatement g) := by
    simp [symbolItem]
  apply Takes.ahead_bind
  change Takes (symbolItem g true "@") _ rest _ tests
  rw [marked]
  exact modified.orElse

section Announced

variable {g : Grammar} (annotations : List DottedName) (name : Identifier) {us rest : List Token}
  {d : TypeDeclaration} {tests : Bool}

/-- A class or an enum with its annotations. -/
theorem takes_type {keyword : String} (announces : keyword = "class" ∨ keyword = "enum")
    (h : Takes (typeRest g (declaredModifiers annotations false))
      (.ofWord keyword :: name.token :: us) rest d tests) :
    Takes (item g true) (annotationTokens annotations ++ .ofWord keyword :: name.token :: us) rest
      (.type d) tests := by
  have declared : Takes (declarationRest g true (declaredModifiers annotations false))
      (.ofWord keyword :: name.token :: us) rest (.type d) tests := by
    rcases announces with rfl | rfl <;> exact .ahead_bind (h.bind_nil (.pure _ rest))
  cases annotations with
  | nil => rcases announces with rfl | rfl <;> exact .ahead_bind declared
  | cons n ns => exact takes_marked n ns (by rcases announces with rfl | rfl <;> rfl) name declared

/-- A record with its annotations. Its keyword may also be a name, so a record without any is read
where else an expression would be. -/
theorem takes_recordType (h : Takes (recordRest g (declaredModifiers annotations false))
      (.ofWord "record" :: name.token :: us) rest d tests) :
    Takes (item g true) (annotationTokens annotations ++ .ofWord "record" :: name.token :: us) rest
      (.type d) tests := by
  cases annotations with
  | nil =>
    have noOperator : (name.text == "instanceof") = false := name.beq_eq_false (by decide)
    have declared := h.bind_nil (f := fun d => pure (Item.type d)) (.pure _ rest)
    apply Takes.ahead_bind
    change Takes (wordOrExpression _ (name.token :: _) _) _ _ _ _
    rw [wordOrExpression, if_neg (by simp [Identifier.token, noOperator])]
    exact declared.orElse
  | cons n ns => exact takes_marked n ns rfl name (.ahead_bind (h.bind_nil (.pure _ rest)))

end Announced

def TypeForm.kind : TypeForm → TypeKind
  | .classForm => .classType
  | .enumForm .. => .enumType
  | .recordForm .. => .recordType

def Class.kept (c : Class) (form : TypeForm) : TypeDeclaration where
  kind := form.kind
  name := c.name.text
  modifiers := declaredModifiers c.annotations false
  components := form.components.map (·.type.kept)
  members := c.members.map Member.kept

theorem flatten_map_singleton {α β : Type} (f : α → β) (xs : List α) :
    (xs.map fun x => [f x]).flatten = xs.map f := by
  rw [← List.flatMap_def, List.map_eq_flatMap]

section Forms

variable {depth : Nat} {c : Class} {us : List Token}

theorem takes_class (fits : c.tokens.length ≤ depth) (spelled : us.map Token.tight = c.tokens)
    (rest : List Token) :
    Takes (item (ofDepth (depth + 1)) true) us rest (.type (c.kept .classForm))
      (Member.anyDeclaresTest c.members) := by
  simp only [Class.tokens, typeTokens, List.length_append, List.length_cons] at fits
  obtain ⟨header, body, rfl, nothing, inside⟩ := exists_eq_typeTokens spelled
  obtain rfl := List.map_eq_nil_iff.1 nothing
  rw [Class.kept, ← flatten_map_singleton Member.kept]
  exact takes_type c.annotations c.name (.inl rfl)
    (.nextIs_bind true rfl (takes_classRest _ (takes_members (by omega) inside rest) _ c.name))

theorem takes_enum {constants : List Identifier} {semicolon : Bool}
    (fits : (firstTokens (.enumForm constants semicolon) c).length ≤ depth)
    (spelled : us.map Token.tight = firstTokens (.enumForm constants semicolon) c)
    (rest : List Token) :
    Takes (item (ofDepth (depth + 1)) true) us rest (.type (c.kept (.enumForm constants semicolon)))
      (Member.anyDeclaresTest c.members) := by
  simp only [firstTokens, typeTokens, List.length_append, List.length_cons] at fits
  obtain ⟨header, body, rfl, nothing, inside⟩ := exists_eq_typeTokens spelled
  obtain rfl := List.map_eq_nil_iff.1 nothing
  obtain ⟨more, rfl, behind⟩ :=
    exists_of_map_tight_append inside (tidy_constants constants).isSymbol_eq_false
  obtain ⟨ms, rfl, within⟩ := exists_of_map_tight_append behind (by split <;> simp)
  have braces : Takes (enumBody (ofDepth (depth + 1))) (.ofSymbol "\x7b" ::
      (commaTokens (constants.map fun i => [i.token])
        ++ ((if semicolon || !c.members.isEmpty then [.ofSymbol ";"] else []) ++ ms)
        ++ [.ofSymbol "\x7d"])) rest
      (c.members.map Member.kept) (Member.anyDeclaresTest c.members) := by
    rw [← flatten_map_singleton Member.kept, List.append_assoc]
    by_cases ended : semicolon || !c.members.isEmpty
    · rw [if_pos ended]
      exact takes_enumBody_members _ (takes_members (by omega) within rest) constants
    · have noMembers : c.members = [] := by
        simpa using (by simpa using ended : _ ∧ _).2
      rw [noMembers] at within
      obtain rfl := List.map_eq_nil_iff.1 within
      rw [if_neg ended, noMembers]
      exact takes_enumBody_constants _ constants rest
  have rule : Takes (typeRest (ofDepth (depth + 1)) (declaredModifiers c.annotations false)) _ rest
      (c.kept (.enumForm constants semicolon)) (Member.anyDeclaresTest c.members) :=
    .nextIs_bind false rfl (.nextIs_bind false rfl (.nextIs_bind true rfl
      (.keyword_bind (.wordExcept_bind rfl
        (.skip (run_typesAfter _ rfl) (braces.bind_nil (.pure _ rest)))))))
  exact takes_type c.annotations c.name (.inr rfl) rule

theorem takes_record {components : List Parameter}
    (fits : (firstTokens (.recordForm components) c).length ≤ depth)
    (spelled : us.map Token.tight = firstTokens (.recordForm components) c) (rest : List Token) :
    Takes (item (ofDepth (depth + 1)) true) us rest (.type (c.kept (.recordForm components)))
      (Member.anyDeclaresTest c.members) := by
  simp only [firstTokens, typeTokens, List.length_append, List.length_cons] at fits
  obtain ⟨header, body, rfl, listed, inside⟩ := exists_eq_typeTokens spelled
  have fitsParameters : (parameterTokens components).length ≤ depth + 1 := by omega
  have taken := takes_parameters fitsParameters listed
    (.ofSymbol "\x7b" :: (body ++ [.ofSymbol "\x7d"]) ++ rest)
  obtain ⟨ps, rfl, -⟩ := exists_of_map_tight_cons listed rfl
  rw [Class.kept, ← flatten_map_singleton Member.kept]
  exact takes_recordType c.annotations c.name
    (takes_recordRest _ (takes_members (by omega) inside rest) _ c.name taken)

theorem takes_first {form : TypeForm} (fits : (firstTokens form c).length ≤ depth)
    (spelled : us.map Token.tight = firstTokens form c) (rest : List Token) :
    Takes (item (ofDepth (depth + 1)) true) us rest (.type (c.kept form))
      (Member.anyDeclaresTest c.members) := by
  cases form with
  | classForm => exact takes_class fits spelled rest
  | enumForm => exact takes_enum fits spelled rest
  | recordForm => exact takes_record fits spelled rest

end Forms

def items (o : Outline) : List Item :=
  o.package?.toList.map (fun name => .package name.text)
    ++ (o.imports.map (fun i => .imported i.isStatic i.onDemand i.name.text)
      ++ (.type (o.first.kept o.form) :: o.others.map fun c => .type (c.kept .classForm)))

theorem Class.tokens_ne_nil (c : Class) : c.tokens ≠ [] := by
  simp [Class.tokens, typeTokens]

theorem firstTokens_ne_nil (form : TypeForm) (c : Class) : firstTokens form c ≠ [] := by
  cases form <;> simp [firstTokens, Class.tokens, typeTokens]

theorem ne_nil_of_map_tight {us ts : List Token} (spelled : us.map Token.tight = ts)
    (written : ts ≠ []) : us ≠ [] := by
  rintro rfl
  exact written spelled.symm

/-- As a list over the package, so that package, imports and type are read by one repetition. -/
theorem packageTokens_eq (package? : Option DottedName) :
    packageTokens package? = package?.toList.flatMap
      fun name => .ofWord "package" :: (name.tokens ++ [.ofSymbol ";"]) := by
  cases package? <;> simp [packageTokens]

/-- The tokens of an outline are read as its items. -/
theorem takes_items (o : Outline) {depth : Nat} (fits : o.tokens.length ≤ depth)
    {us : List Token} (spelled : us.map Token.tight = o.tokens) :
    Takes (toEnd (item (ofDepth (depth + 1)) true)) us [] o.items
      ((o.first :: o.others).any fun c => Member.anyDeclaresTest c.members) := by
  rw [tokens] at spelled fits
  simp only [List.length_append] at fits
  have fitsOther : ∀ c ∈ o.others, c.tokens.length ≤ depth := by
    intro c mem
    have shorter : c.tokens.length ≤ (o.others.flatMap Class.tokens).length :=
      length_le_length_flatMap mem
    omega
  have imported : Token.Tidy separators (o.imports.flatMap Import.tokens) :=
    .flatMap fun i _ => i.tidy_tokens
  obtain ⟨more, rfl, behind⟩ :=
    exists_of_map_tight_append spelled (tidy_packageTokens o.package?).isSymbol_eq_false
  obtain ⟨types, rfl, declared⟩ := exists_of_map_tight_append behind imported.isSymbol_eq_false
  obtain ⟨front, back, rfl, spelledFirst, spelledOthers⟩ := List.map_eq_append_iff.1 declared
  obtain ⟨classes, eq, rfl, spelledEach⟩ := exists_of_map_eq_flatMap spelledOthers
  have others := Takes.toEnd_flatMap (p := item (ofDepth (depth + 1)) true) classes
    (fun x mem => ne_nil_of_map_tight (spelledEach x mem) x.1.tokens_ne_nil)
    (fun x mem => takes_class (fitsOther x.1 (eq ▸ List.mem_map_of_mem mem)) (spelledEach x mem))
    (.toEnd_nil _)
  rw [List.append_nil, List.append_nil, Bool.or_false] at others
  have first := Takes.toEnd_cons
    (ne_nil_of_map_tight spelledFirst (firstTokens_ne_nil o.form o.first))
    (takes_first (by omega) spelledFirst _) others
  have imports := Takes.toEnd_flatMap o.imports (fun i _ => List.cons_ne_nil _ _)
    (fun i _ => takes_import _ i) first
  have all := Takes.toEnd_flatMap o.package?.toList (by simp)
    (fun name _ => takes_package _ name) imports
  have noTest {α : Type} (xs : List α) : (xs.any fun _ => false) = false := by
    rw [List.any_eq_false]
    simp
  rw [noTest, noTest, Bool.false_or, Bool.false_or] at all
  rw [items, List.any_cons, eq, List.map_map, List.any_map, packageTokens_eq]
  exact all

/-- The tokens of an outline are a well-formed source. -/
theorem parseTokens_of_tight (o : Outline) {us : List Token}
    (spelled : us.map Token.tight = o.tokens) :
    Source.parseTokens us = .ok ⟨o.items,
      (o.first :: o.others).any fun c => Member.anyDeclaresTest c.members⟩ := by
  have length : o.tokens.length ≤ us.length := by rw [← spelled, List.length_map]
  have read := o.takes_items length spelled
  rw [Takes, List.append_nil, run] at read
  rw [Source.parseTokens, read]

/-! ## Units -/

theorem isFinal_declaredModifiers (annotations : List DottedName) (isFinal : Bool) :
    (declaredModifiers annotations isFinal).isFinal = isFinal := by
  cases isFinal <;> rfl

/-- What a unit takes from the members that were read is what the outline says of them. -/
theorem fields_kept (ms : List Outline.Member) :
    Java.Member.fields (ms.map Member.kept) = ms.filterMap Member.field? := by
  rw [Java.Member.fields, List.filterMap_map]
  congr 1
  funext m
  cases m with
  | field annotations isFinal type name =>
    simp only [Function.comp_apply, Member.kept, Member.field?, type.names_kept,
      simpleAnnotations_declaredModifiers, isFinal_declaredModifiers]
  | constructor | method | nested => rfl

theorem names_kept (ps : List Parameter) :
    (ps.map (·.type.kept)).flatMap TypeRef.names = typeNames ps := by
  rw [List.flatMap_map]
  exact List.flatMap_congr fun p _ => p.type.names_kept

theorem parameterTypes_kept (ms : List Outline.Member) :
    Java.Member.parameterTypes (ms.map Member.kept) = typeNames (ms.flatMap Member.parameters) := by
  rw [Java.Member.parameterTypes, List.flatMap_map, typeNames, List.flatMap_assoc]
  refine List.flatMap_congr fun m _ => ?_
  cases m with
  | constructor name ps => exact names_kept ps
  | field | method | nested => rfl

variable (o : Outline) (tests : Bool)

theorem firstType?_items :
    Source.firstType? ⟨o.items, tests⟩ = some (o.first.kept o.form) := by
  have kind : (o.first.kept o.form).kind ≠ .annotationType := by
    cases form : o.form <;> simp [Class.kept, TypeForm.kind]
  have noType : o.imports.findSome? (fun _ => (none : Option TypeDeclaration)) = none :=
    List.findSome?_eq_none_iff.mpr fun _ _ => rfl
  cases package : o.package? <;>
    simp [Source.firstType?, items, package, List.findSome?_append, List.findSome?_map,
      Function.comp_def, noType, kind]

theorem package?_items : Source.package? ⟨o.items, tests⟩ = o.package?.map DottedName.text := by
  cases package : o.package? <;>
    simp [Source.package?, items, package, List.findSome?_append, List.findSome?_map,
      Function.comp_def]

theorem imports_items : Source.imports ⟨o.items, tests⟩
    = (o.imports.filter fun i => !i.isStatic && !i.onDemand).map (·.name.text) := by
  have both (xs ys : List Item) : Source.imports ⟨xs ++ ys, tests⟩
      = Source.imports ⟨xs, tests⟩ ++ Source.imports ⟨ys, tests⟩ :=
    List.filterMap_append
  have packages : Source.imports ⟨o.package?.toList.map fun n => .package n.text, tests⟩ = [] := by
    simp [Source.imports]
  have types : Source.imports ⟨.type (o.first.kept o.form)
      :: o.others.map fun c => .type (c.kept .classForm), tests⟩ = [] := by
    simp [Source.imports]
  rw [items, both, both, packages, types, List.append_nil, List.nil_append]
  simp only [Source.imports]
  induction o.imports with
  | nil => rfl
  | cons i is ih =>
    obtain ⟨isStatic, onDemand, name⟩ := i
    cases isStatic <;> cases onDemand <;> simpa using ih

/-- The unit of an outline's items is the outline's unit. -/
theorem ofSource_items (path : String) :
    SourceUnit.ofSource path ⟨o.items,
      (o.first :: o.others).any fun c => Member.anyDeclaresTest c.members⟩
      = some (o.unit path) := by
  rw [SourceUnit.ofSource, firstType?_items, package?_items, imports_items, Option.map_some]
  simp only [Class.kept, simpleAnnotations_declaredModifiers, fields_kept, parameterTypes_kept,
    names_kept, unit]

end Outline

end ChangeImpact.Java
