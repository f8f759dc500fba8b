import ChangeImpact.Java.Grammar.Type
import ChangeImpact.Proofs.Java.Agreement

/-!
# Names, annotations and types without their layout

A name keeps the layout that stands between its tokens, so what is read from two sources
with the same tokens is not equal. It is alike: the last segments of the names of types
stand at the same places, and those of annotations are equal. These are all that a unit
holds of such names.

## Main definitions

* `TypeRef.Alike`, `Modifiers.Alike`, `Member.Alike`: what is read alike.
* `Grammar.Uniform`: the parts of a grammar do not see the layout.

## Main statements

* `Grammar.qualifiedName_agreesAt`: a dotted name is cut out at the same place of both.
* `Grammar.simpleTypeExcept_alike`: types are read alike. A segment of a type's name may
  have annotations of its own, which are then part of the name.
-/

namespace ChangeImpact.Java

/-! ## What is the same in spite of layout -/

/-- Two types are of the same form, and the class names in them stand at the same places. -/
inductive TypeRef.Alike (P : SourcePair) : TypeRef → TypeRef → Prop
  | primitive (name name' : String) : Alike P (.primitive name) (.primitive name')
  | named {name name' : String} (same : P.Segment (simpleName name) (simpleName name')) :
      Alike P (.named name) (.named name')
  | generic {name name' : String} {arguments arguments' : List TypeRef}
      (same : P.Segment (simpleName name) (simpleName name'))
      (names : List.Forall₂ P.Segment (TypeRef.namesOfAll arguments)
        (TypeRef.namesOfAll arguments')) :
      Alike P (.generic name arguments) (.generic name' arguments')
  | array {element element' : TypeRef}
      (names : List.Forall₂ P.Segment element.names element'.names) :
      Alike P (.array element) (.array element')
  | wildcard : Alike P .wildcard .wildcard
  | bounded {bound bound' : TypeRef} (names : List.Forall₂ P.Segment bound.names bound'.names) :
      Alike P (.bounded bound) (.bounded bound')

namespace TypeRef.Alike

variable {P : SourcePair}

/-- The class names of a type are its own name and those of its arguments. -/
theorem names {t t' : TypeRef} (h : t.Alike P t') : List.Forall₂ P.Segment t.names t'.names := by
  cases h with
  | primitive => simp [TypeRef.names]
  | named same => simpa [TypeRef.names] using same
  | generic same names =>
    rw [TypeRef.names, TypeRef.names]
    exact .cons same names
  | array names => simpa [TypeRef.names] using names
  | wildcard => exact .nil
  | bounded names => simpa [TypeRef.names] using names

theorem namesOfAll {ts ts' : List TypeRef} (h : List.Forall₂ (TypeRef.Alike P) ts ts') :
    List.Forall₂ P.Segment (TypeRef.namesOfAll ts) (TypeRef.namesOfAll ts') := by
  induction h with
  | nil => exact .nil
  | cons first _ ih =>
    rw [TypeRef.namesOfAll, TypeRef.namesOfAll]
    exact List.rel_append first.names ih

theorem flatMap_names {ts ts' : List TypeRef} (h : List.Forall₂ (TypeRef.Alike P) ts ts') :
    List.Forall₂ P.Segment (ts.flatMap TypeRef.names) (ts'.flatMap TypeRef.names) :=
  List.rel_flatMap h fun _ _ alike => alike.names

theorem arrays {t t' : TypeRef} (h : t.Alike P t') (n : Nat) :
    (t.arrays n).Alike P (t'.arrays n) := by
  induction n with
  | zero => exact h
  | succ n ih => exact .array ih.names

end TypeRef.Alike

/-- Two declarations have the same keywords in front, and annotations of the same names. -/
structure Modifiers.Alike (m m' : Modifiers) : Prop where
  annotations_eq : m.simpleAnnotations = m'.simpleAnnotations
  keywords_eq : m.keywords = m'.keywords

namespace Modifiers.Alike

variable {m m' : Modifiers}

theorem isEmpty_eq (h : m.Alike m') : m.isEmpty = m'.isEmpty := by
  have isEmpty_annotations (m : Modifiers) : m.annotations.isEmpty = m.simpleAnnotations.isEmpty :=
    List.isEmpty_map.symm
  rw [isEmpty, isEmpty, isEmpty_annotations, isEmpty_annotations, h.annotations_eq, h.keywords_eq]

theorem isFinal_eq (h : m.Alike m') : m.isFinal = m'.isFinal := by
  rw [isFinal, isFinal, h.keywords_eq]

/-- A test is known by its annotations, so the layout in their names must not differ. -/
theorem marksTest_eq (h : m.Alike m') : m.marksTest = m'.marksTest := by
  rw [marksTest, marksTest, h.annotations_eq]

end Modifiers.Alike

/-- Two members are of the same kind, and the class names in them stand at the same places. -/
inductive Member.Alike (P : SourcePair) : Member → Member → Prop
  | field {m m' : Modifiers} {type type' : TypeRef} (modifiers : m.Alike m')
      (types : type.Alike P type') : Alike P (.field m type) (.field m' type')
  | constructor {parameters parameters' : List TypeRef}
      (types : List.Forall₂ (TypeRef.Alike P) parameters parameters') :
      Alike P (.constructor parameters) (.constructor parameters')
  | other : Alike P .other .other

instance forall₂_isRefl {α : Type} {R : α → α → Prop} [Std.Refl R] : Std.Refl (List.Forall₂ R) :=
  ⟨List.forall₂_refl⟩

instance NamedAlike.isRefl : Std.Refl NamedAlike := ⟨fun _ => rfl⟩

instance TypeRef.Alike.isRefl (P : SourcePair) : Std.Refl (TypeRef.Alike P) where
  refl t := by cases t <;> constructor <;> exact refl _

instance Modifiers.Alike.isRefl : Std.Refl Modifiers.Alike := ⟨fun _ => ⟨rfl, rfl⟩⟩

instance Member.Alike.isRefl (P : SourcePair) : Std.Refl (Member.Alike P) where
  refl
    | .field m type => .field (refl m) (refl type)
    | .constructor parameters => .constructor (refl parameters)
    | .other => .other

namespace Grammar

open ChangeImpact.Java.Parser

/-- A grammar whose parts do not see the layout. -/
class Uniform (g : Grammar) : Prop where
  typeArgument : ∀ P, Alike P (TypeRef.Alike P) g.typeArgument
  elementValue : ∀ P, ReadsAlike P g.elementValue
  expression : ∀ P use, ReadsAlike P (g.expression use)
  initializer : ∀ P, ReadsAlike P g.initializer
  recordPattern : ∀ P, ReadsAlike P g.recordPattern
  statement : ∀ P, ReadsAlike P g.statement
  member : ∀ P kind, Alike P (List.Forall₂ (Member.Alike P)) (g.member kind)

attribute [instance] Uniform.typeArgument Uniform.elementValue Uniform.expression
  Uniform.initializer Uniform.recordPattern Uniform.statement Uniform.member

/-! ## Names and annotations -/

variable {P : SourcePair} {before ts ts' : List Token}

/-- A dotted name is cut out at the same place of both sources. -/
theorem qualifiedName_agreesAt (same : P.At before ts ts') :
    AgreesAt (fun name name' n => IsDotted (ts.take n) ∧ name = Token.textOf (ts.take n) ∧
      name' = Token.textOf (ts'.take n)) qualifiedName qualifiedName ts ts' := by
  have tokens : AgreesAt (fun _ _ n => IsDotted (ts.take n))
      (do let _ ← word; let _ ← many (do symbol "."; word))
      (do let _ ← word; let _ ← many (do symbol "."; word)) ts ts' := by
    refine .wordExcept_bind [] same fun first layout rest rest' isWord eq eq' more => ?_
    subst eq
    -- The rounds begin behind the first word.
    refine (AgreesAt.many (R := fun _ _ => True) (I := fun n => IsDotted (first :: rest.take n))
      more.length_eq (.word first isWord) fun n known => ?_).bind ?_
    · refine .symbol_bind "." (more.drop n) fun dot layout us us' isDot at_dot _ more' => ?_
      refine (AgreesAt.satisfy _ more').bind ?_
      rintro segment _ _ ⟨rfl, isWord, layout', vs, vs', rfl, rfl, rfl, -⟩
      have taken : rest.take (n + 2) = rest.take n ++ [dot, segment] := by
        rw [List.take_add, at_dot]
        rfl
      refine .pure ⟨trivial, ?_⟩
      simp only [Nat.add_zero, taken]
      exact known.segment isDot ((Bool.and_eq_true _ _).mp isWord).1
    · rintro _ _ n ⟨-, known⟩
      refine .pure ?_
      rwa [Nat.add_zero, Nat.add_comm, List.take_succ_cons]
  refine tokens.withText.bind ?_
  rintro ⟨_, _⟩ ⟨_, _⟩ n ⟨known, rfl, rfl⟩
  exact .pure ⟨known, rfl, rfl⟩

instance (priority := low) takes_of_name {p : Parser String} [h : Alike P NamedAlike p] :
    TakesAlike P p :=
  h.agree.takesAlike

instance (priority := low) takes_of_type {p : Parser TypeRef} [h : Alike P (TypeRef.Alike P) p] :
    TakesAlike P p :=
  h.agree.takesAlike

instance (priority := low) takes_of_modifiers {p : Parser Modifiers}
    [h : Alike P Modifiers.Alike p] : TakesAlike P p :=
  h.agree.takesAlike

instance qualifiedName_takes : TakesAlike P qualifiedName := by
  refine ⟨?_⟩
  rintro ts ts' ⟨before, same⟩
  exact (qualifiedName_agreesAt same).mono fun _ _ _ _ => trivial

variable (g : Grammar) [g.Uniform]

instance annotationArguments_reads : ReadsAlike P (annotationArguments g) := by
  refine ⟨(Agree.symbol "(").bind fun _ _ _ => .ahead_bind fun ts ts' same => ?_⟩
  cases same.view₂ <;> exact Alike.agreesAt same

/-- Every dot of an annotation's name is seen to stand in it, since there are only words and dots
between the marker and the dot. -/
theorem inAnnotationName_of_isDotted {marker dot : Token} {us : List Token} (dotted : IsDotted us)
    (isMarker : marker.isSymbol "@" = true) (isDot : dot.isSymbol "." = true) :
    Token.inAnnotationName (dot :: (us.reverse ++ marker :: before)) = true := by
  induction dotted generalizing dot with
  | word t isWord => simp [Token.inAnnotationName, isMarker, isDot, isWord]
  | segment front isDot' isWord ih =>
    simp [Token.inAnnotationName, isDot, isWord, ih isDot']

/-- What stands behind the dots of an annotation's name is the same in both sources, and with it
the last segment. -/
theorem namedAlike_of_isDotted {marker : Token} (isMarker : marker.isSymbol "@" = true)
    (same : SameTokens (marker :: before) ts ts') (dotted : IsDotted ts) :
    NamedAlike (Token.textOf ts) (Token.textOf ts') := by
  cases dotted with
  | word t isWord =>
    cases same with
    | cons _ layout _ _ more =>
      cases more
      rfl
  | @segment _ dot _ front isDot _ =>
    obtain ⟨us', _, rfl, behind⟩ := same.append_inv
    cases behind with
    | cons _ layout _ _ behind =>
      cases behind with
      | cons _ _ _ marked last =>
        cases last
        obtain rfl := marked (inAnnotationName_of_isDotted front isMarker isDot)
        have isDot' : (dot.relaid layout).isSymbol "." = true := isDot
        rw [NamedAlike, simpleName_textOf isDot, simpleName_textOf isDot']
        rfl

instance annotationRule_alike : Alike P NamedAlike (annotationRule g) := by
  refine ⟨?_⟩
  rintro ts ts' ⟨before, same⟩
  refine .symbol_bind "@" same fun marker layout rest rest' isMarker _ _ more => ?_
  refine (qualifiedName_agreesAt more).bind ?_
  rintro _ _ n ⟨dotted, rfl, rfl⟩
  have alike := namedAlike_of_isDotted isMarker (more.sameTokens.take n) dotted
  exact (Alike.agreesAt (R := fun _ _ => True) ⟨_, more.drop n⟩).bind fun _ _ _ _ => .pure alike

/-- Whether a word joins `@interface` does not depend on the layout that is free. -/
theorem agreesAt_joinedWord {marker : Token} (isMarker : marker.isSymbol "@interface" = true)
    (same : P.At (marker :: before) ts ts') :
    AgreesAt (fun _ _ _ => True) (satisfy fun t => t.isWord && t.adjacent)
      (satisfy fun t => t.isWord && t.adjacent) ts ts' := by
  refine (AgreesAt.satisfy_of same ?_).mono fun _ _ _ _ => trivial
  rintro t layout rest rest' rfl rfl
  obtain ⟨_, _, eq, close, -⟩ := same.cons_inv
  cases eq
  by_cases isWord : t.isWord
  · simp [close (by simp [Token.fuses, isMarker, isWord])]
  · simp [isWord]

instance innerAnnotationRule_alike : Alike P NamedAlike (innerAnnotationRule g) := by
  refine ⟨(Agree.nextIs fun t => t.isSymbol "@interface").bind ?_⟩
  rintro declares _ rfl
  refine .ite ?_ Alike.agree
  rintro ts ts' ⟨before, same⟩
  refine .symbol_bind "@interface" same fun marker layout rest rest' isMarker _ _ more => ?_
  exact (agreesAt_joinedWord isMarker more).optional.bind fun _ _ n _ =>
    Alike.agreesAt ⟨_, more.drop n⟩

instance annotations_takes : TakesAlike P (annotations g) :=
  inferInstanceAs (TakesAlike P (many _))

/-! ## Modifiers -/

instance startsNonSealed_sees : SeesAlike startsNonSealed := by
  refine ⟨fun {P ts ts'} same => ?_⟩
  obtain ⟨before, same⟩ := same
  rcases ts with _ | ⟨first, _ | ⟨second, _ | ⟨third, rest⟩⟩⟩
  · rw [same.eq_nil]
  · obtain ⟨_, _, rfl, -, -, more⟩ := same.cons_inv
    rw [more.eq_nil]
    rfl
  · obtain ⟨_, _, rfl, -, -, more⟩ := same.cons_inv
    obtain ⟨_, _, rfl, -, -, more⟩ := more.cons_inv
    rw [more.eq_nil]
    rfl
  · obtain ⟨_, _, rfl, -, -, more⟩ := same.cons_inv
    obtain ⟨layout, _, rfl, close, -, more⟩ := more.cons_inv
    obtain ⟨layout', _, rfl, close', -⟩ := more.cons_inv
    simp only [Token.fuses] at close close'
    simp only [startsNonSealed, Token.relaid_isWordOf, Token.relaid_isSymbol]
    grind

instance modifier_alike (marker : Parser String) [h : Alike P NamedAlike marker] :
    Alike P Modifiers.Alike (modifier marker) := by
  have annotation : Alike P Modifiers.Alike (do return { annotations := [← marker] }) :=
    ⟨h.agree.bind fun _ _ alike => .pure ⟨congrArg ([·]) alike, rfl⟩⟩
  unfold modifier
  infer_instance

/-- Modifiers are read one by one, and put together they are alike. -/
theorem allModifiers_alike {parts parts' : List Modifiers}
    (h : List.Forall₂ Modifiers.Alike parts parts') :
    (allModifiers parts).Alike (allModifiers parts') := by
  have simpleAnnotations_cons (m : Modifiers) (ms : List Modifiers) :
      (allModifiers (m :: ms)).simpleAnnotations
        = m.simpleAnnotations ++ (allModifiers ms).simpleAnnotations := List.map_append
  have keywords_cons (m : Modifiers) (ms : List Modifiers) :
      (allModifiers (m :: ms)).keywords = m.keywords ++ (allModifiers ms).keywords := rfl
  induction h with
  | nil => exact ⟨rfl, rfl⟩
  | cons first _ ih =>
    refine ⟨?_, ?_⟩
    · rw [simpleAnnotations_cons, simpleAnnotations_cons, first.annotations_eq, ih.annotations_eq]
    · rw [keywords_cons, keywords_cons, first.keywords_eq, ih.keywords_eq]

instance modifiers_alike : Alike P Modifiers.Alike (modifiers g) :=
  ⟨Alike.agree.many.bind fun _ _ alike => .pure (allModifiers_alike alike)⟩

instance innerModifiers_alike : Alike P Modifiers.Alike (innerModifiers g) :=
  ⟨Alike.agree.many.bind fun _ _ alike => .pure (allModifiers_alike alike)⟩

/-! ## Types -/

instance typeArguments_alike : Alike P (List.Forall₂ (TypeRef.Alike P)) (typeArguments g) :=
  ⟨Alike.agree.listed "<" ">"⟩

instance typeArguments_takes : TakesAlike P (typeArguments g) :=
  (typeArguments_alike g).agree.takesAlike

/-- A segment of a class name is cut out at the same place of both sources. -/
theorem typeSegment_agreesAt (taken : List String) {start start' : List Token} {n : Nat}
    (same : P.At before start start')
    (ends : ∀ t rest, start.drop n = t :: rest → EndsWithSegment (start.take (n + 1))) :
    AgreesAt (fun type type' _ => TypeRef.Alike P type type') (typeSegment g taken start)
      (typeSegment g taken start') (start.drop n) (start'.drop n) := by
  refine .wordExcept_bind taken (same.drop n) fun t layout rest rest' _ eq eq' more =>
    .ahead_bind ?_
  have length_eq : start.length - rest.length = n + 1 := by
    have := congrArg List.length eq
    simp only [List.length_drop, List.length_cons] at this
    omega
  have length_eq' : start'.length - rest'.length = n + 1 := by
    rw [← same.length_eq, ← more.length_eq, length_eq]
  have alike : P.Segment (simpleName (Token.textOf (start.take (n + 1))))
      (simpleName (Token.textOf (start'.take (n + 1)))) :=
    .inr ⟨before, start, start', n + 1, same, ends t rest eq, rfl, rfl⟩
  refine ((typeArguments_alike g).agree.optional _ _ ⟨_, more⟩).bind fun _ _ k arguments => ?_
  rw [length_eq, length_eq']
  cases arguments with
  | none => exact .pure (.named alike)
  | some arguments => exact .pure (.generic alike (TypeRef.Alike.namesOfAll arguments))

omit [g.Uniform] in
theorem run_annotations_of_plain {t : Token} (plain : t.beginsAnnotation = false)
    (rest : List Token) : run (annotations g) (t :: rest) = some ⟨[], false, 0, t :: rest⟩ := by
  obtain ⟨notAt, notMarker⟩ := Bool.or_eq_false_iff.mp plain
  have none_read : run (innerAnnotationRule g) (t :: rest) = none := by
    simp [innerAnnotationRule, annotationRule, run_bind, run_nextIsSymbol, run_symbol_cons, notAt,
      notMarker]
  rw [annotations, run_many, none_read]

/-- Behind a dot, annotations and the token that follows them are the end of a name's segment. -/
theorem annotations_agreesAt (front : List Token) {dot : Token} (isDot : dot.isSymbol "." = true)
    (same : P.At before ts ts') :
    AgreesAt (fun _ _ n => ∀ t rest, ts.drop n = t :: rest →
        EndsWithSegment (front ++ dot :: ts.take (n + 1)))
      (annotations g) (annotations g) ts ts' := by
  cases ts with
  | nil =>
    refine ((annotations_takes g).agreesAt ⟨before, same⟩).mono fun _ _ n _ => ?_
    simp
  | cons marker more =>
    by_cases begins : marker.beginsAnnotation
    · refine ((annotations_takes g).agreesAt ⟨before, same⟩).mono fun _ _ n _ t rest _ => ?_
      exact .behindDot front isDot marker (more.take n) (.inr begins)
    · have plain : marker.beginsAnnotation = false := by simpa using begins
      obtain ⟨layout, more', rfl, -, -, -⟩ := same.cons_inv
      exact .both [] [] false 0 (run_annotations_of_plain g plain more)
        (run_annotations_of_plain g (t := marker.relaid layout) plain more')
        fun _ _ _ => .behindDot front isDot marker [] (.inl rfl)

/-- The type that is read is the last segment with its arguments, or the first one if there is no
other. -/
theorem forall₂_getLast?_getD {α : Type} {R : α → α → Prop} {as as' : List α} {a a' : α}
    (first : R a a') (h : List.Forall₂ R as as') :
    R (as.getLast?.getD a) (as'.getLast?.getD a') := by
  rw [List.getLast?_eq_head?_reverse, List.getLast?_eq_head?_reverse]
  have reversed := List.forall₂_reverse_iff.2 h
  generalize as.reverse = bs, as'.reverse = bs' at reversed
  cases reversed with
  | nil => exact first
  | cons last _ => exact last

instance simpleTypeExcept_alike (taken : List String) :
    Alike P (TypeRef.Alike P) (simpleTypeExcept g taken) := by
  refine ⟨.ahead_bind ?_⟩
  rintro start start' ⟨before, same⟩
  rw [(SeesAlike.head fun t => t.isWord && primitiveWords.contains t.text).eq ⟨before, same⟩]
  split
  · exact ((Agree.wordExcept []).bind fun _ _ _ => .pure (.primitive _ _)) _ _ ⟨before, same⟩
  have single (t : Token) (rest : List Token) (eq : start.drop 0 = t :: rest) :
      EndsWithSegment (start.take 1) := by
    rw [List.drop_zero] at eq
    subst eq
    exact .single t
  refine (typeSegment_agreesAt g [] same single).bind fun _ _ n alike => ?_
  -- A further segment stands behind a dot.
  refine (AgreesAt.many (R := TypeRef.Alike P) (I := fun _ => True) (same.drop n).length_eq trivial
    fun k _ => ?_).bind fun _ _ _ alikes => .pure (forall₂_getLast?_getD alike alikes.1)
  refine .symbol_bind "." ((same.drop n).drop k) fun dot layout rest rest' isDot eq eq' more => ?_
  rw [List.drop_drop] at eq eq'
  refine (annotations_agreesAt g (start.take (n + k)) isDot more).bind fun _ _ j ends => ?_
  have left : rest.drop j = start.drop (n + k + (1 + j)) := by
    rw [← List.drop_drop, eq, Nat.add_comm 1 j, List.drop_succ_cons]
  have right : rest'.drop j = start'.drop (n + k + (1 + j)) := by
    rw [← List.drop_drop, eq', Nat.add_comm 1 j, List.drop_succ_cons]
  rw [left, right]
  have segment : start.take (n + k + (1 + j) + 1)
      = start.take (n + k) ++ dot :: rest.take (j + 1) := by
    rw [Nat.add_assoc, List.take_add, eq, Nat.add_comm 1 j, List.take_succ_cons]
  refine (typeSegment_agreesAt g taken same fun t us at_t => ?_).mono fun _ _ _ alike =>
    ⟨alike, trivial⟩
  rw [segment]
  exact ends t us (left.trans at_t)

instance simpleType_alike : Alike P (TypeRef.Alike P) (simpleType g) := simpleTypeExcept_alike g []

instance dimension_reads : ReadsAlike P (dimension g) := by
  unfold dimension
  infer_instance

instance plainTypeExcept_alike (taken : List String) :
    Alike P (TypeRef.Alike P) (plainTypeExcept g taken) := by
  refine ⟨(simpleTypeExcept_alike g taken).agree.bind fun _ _ alike => ?_⟩
  refine (Alike.agree (R := Eq)).bind ?_
  rintro dimensions _ rfl
  exact .pure (alike.arrays dimensions.length)

instance plainType_alike : Alike P (TypeRef.Alike P) (plainType g) := plainTypeExcept_alike g []

instance typeRef_alike : Alike P (TypeRef.Alike P) (typeRef g) := by
  unfold typeRef
  infer_instance

instance boundedType_alike : Alike P (TypeRef.Alike P) (do return .bounded (← typeRef g)) :=
  ⟨(typeRef_alike g).agree.bind fun _ _ alike => .pure (.bounded alike.names)⟩

instance typeArgumentRule_alike : Alike P (TypeRef.Alike P) (typeArgumentRule g) := by
  unfold typeArgumentRule
  infer_instance

instance typeList_reads : ReadsAlike P (typeList g) := by
  unfold typeList
  infer_instance

instance typeParameter_reads : ReadsAlike P (typeParameter g) := by
  unfold typeParameter
  infer_instance

instance typeParameters_reads : ReadsAlike P (typeParameters g) := by
  unfold typeParameters
  infer_instance

end Grammar

end ChangeImpact.Java
