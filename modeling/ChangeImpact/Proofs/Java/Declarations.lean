import ChangeImpact.Java.Grammar.Declaration
import ChangeImpact.Proofs.Java.Expressions

/-!
# Declarations without their layout

The rules behind modifiers are given the modifiers, which are alike in two sources that
differ in layout, and not the same. So these rules agree with one another, and the others
with themselves.

## Main statements

* `Grammar.typeRest_agree`: type declarations are read alike.
* `Grammar.memberRule_alike`: members are read alike.
-/

namespace ChangeImpact.Java

structure TypeDeclaration.Alike (P : SourcePair) (d d' : TypeDeclaration) : Prop where
  kind_eq : d.kind = d'.kind
  name_eq : d.name = d'.name
  modifiers : d.modifiers.Alike d'.modifiers
  components : List.Forall₂ (TypeRef.Alike P) d.components d'.components
  members : List.Forall₂ (Member.Alike P) d.members d'.members

instance TypeDeclaration.Alike.isRefl (P : SourcePair) : Std.Refl (TypeDeclaration.Alike P) :=
  ⟨fun _ => ⟨rfl, rfl, refl _, refl _, refl _⟩⟩

namespace Grammar

open ChangeImpact.Java.Parser

variable {P : SourcePair} (g : Grammar) [g.Uniform] {m m' : Modifiers}

/-! ## Methods and constructors -/

instance throwsClause_reads : ReadsAlike P (throwsClause g) := by
  unfold throwsClause
  infer_instance

/-- Whether a method is a test is decided by its modifiers. -/
theorem methodRest_agree (modifiers : m.Alike m') :
    Agree P Eq (methodRest g m) (methodRest g m') := by
  unfold methodRest
  rw [modifiers.marksTest_eq]
  exact Alike.agree

/-- A method from its type on. -/
theorem methodOfType_agree (modifiers : m.Alike m') {α : Type} {R : α → α → Prop} [Std.Refl R]
    (a : α) :
    Agree P R
      (do let _ ← annotations g; let _ ← plainType g; let _ ← word; methodRest g m; return a)
      (do let _ ← annotations g; let _ ← plainType g; let _ ← word; methodRest g m'; return a) :=
  .seq (annotations_takes g).agree <| .seq (plainType_alike g).agree <| .seq (.wordExcept _) <|
    .seq (methodRest_agree g modifiers) (.pure (refl a))

instance constructorCall_reads : ReadsAlike P (constructorCall g) := by
  unfold constructorCall
  infer_instance

instance constructorBody_reads : ReadsAlike P (constructorBody g) := by
  unfold constructorBody
  infer_instance

instance constructorRest_alike : Alike P (List.Forall₂ (TypeRef.Alike P)) (constructorRest g) :=
  ⟨.seq (.wordExcept _) <| (parameters_alike g).agree.bind fun _ _ types =>
    .seq (throwsClause_reads g).agree <| .seq (constructorBody_reads g).agree (.pure types)⟩

instance constructor_alike :
    Alike P (List.Forall₂ (Member.Alike P)) (do return [.constructor (← constructorRest g)]) :=
  ⟨(constructorRest_alike g).agree.bind fun _ _ types => .pure (.cons (.constructor types) .nil)⟩

instance variablesRest_reads : ReadsAlike P (variablesRest g) := by
  unfold variablesRest
  infer_instance

/-! ## Type declarations -/

instance startsType_sees : SeesAlike startsType where
  eq same := by cases same.view <;> rfl

instance typesAfter_reads (text : String) : ReadsAlike P (typesAfter g text) := by
  unfold typesAfter
  infer_instance

instance plainBody_alike (kind : BodyKind) :
    Alike P (List.Forall₂ (Member.Alike P)) (plainBody g kind) := by
  unfold plainBody
  infer_instance

instance enumConstant_reads : ReadsAlike P (enumConstant g) := by
  unfold enumConstant
  infer_instance

instance enumBody_alike : Alike P (List.Forall₂ (Member.Alike P)) (enumBody g) := by
  unfold enumBody
  infer_instance

section Kinds

variable (modifiers : m.Alike m')

include modifiers

theorem classRest_agree : Agree P (TypeDeclaration.Alike P) (classRest g m) (classRest g m') :=
  .seq (.keyword _) <| (Agree.wordExcept _).bind fun _ _ name_eq =>
    .seq (.when _ (typeParameters_reads g).agree) <|
    .seq (.whenWord _ (.seq (.keyword _) (typeRef_alike g).agree)) <|
    .seq (typesAfter_reads g _).agree <| .seq (typesAfter_reads g _).agree <|
    (classBody_alike g).agree.bind fun _ _ members => .pure ⟨rfl, name_eq, modifiers, .nil, members⟩

theorem interfaceRest_agree :
    Agree P (TypeDeclaration.Alike P) (interfaceRest g m) (interfaceRest g m') :=
  .seq (.keyword _) <| (Agree.wordExcept _).bind fun _ _ name_eq =>
    .seq (.when _ (typeParameters_reads g).agree) <|
    .seq (typesAfter_reads g _).agree <| .seq (typesAfter_reads g _).agree <|
    (plainBody_alike g _).agree.bind fun _ _ members =>
    .pure ⟨rfl, name_eq, modifiers, .nil, members⟩

theorem enumRest_agree : Agree P (TypeDeclaration.Alike P) (enumRest g m) (enumRest g m') :=
  .seq (.keyword _) <| (Agree.wordExcept _).bind fun _ _ name_eq =>
    .seq (typesAfter_reads g _).agree <| (enumBody_alike g).agree.bind fun _ _ members =>
    .pure ⟨rfl, name_eq, modifiers, .nil, members⟩

theorem recordRest_agree : Agree P (TypeDeclaration.Alike P) (recordRest g m) (recordRest g m') :=
  .seq (.keyword _) <| (Agree.wordExcept _).bind fun _ _ name_eq =>
    .seq (.when _ (typeParameters_reads g).agree) <|
    (parameters_alike g).agree.bind fun _ _ components => .seq (typesAfter_reads g _).agree <|
    (classBody_alike g).agree.bind fun _ _ members =>
    .pure ⟨rfl, name_eq, modifiers, components, members⟩

theorem annotationTypeRest_agree :
    Agree P (TypeDeclaration.Alike P) (annotationTypeRest g m) (annotationTypeRest g m') :=
  .seq (.symbol _) <| (Agree.wordExcept _).bind fun _ _ name_eq =>
    (plainBody_alike g _).agree.bind fun _ _ members =>
    .pure ⟨rfl, name_eq, modifiers, .nil, members⟩

theorem typeRest_agree : Agree P (TypeDeclaration.Alike P) (typeRest g m) (typeRest g m') := by
  refine (Agree.nextIs fun t => t.isWordOf "class").bind ?_
  rintro isClass _ rfl
  refine .ite (classRest_agree g modifiers) ?_
  refine (Agree.nextIs fun t => t.isWordOf "interface").bind ?_
  rintro isInterface _ rfl
  refine .ite (interfaceRest_agree g modifiers) ?_
  refine (Agree.nextIs fun t => t.isWordOf "enum").bind ?_
  rintro isEnum _ rfl
  exact .ite (enumRest_agree g modifiers) (annotationTypeRest_agree g modifiers)

/-! ## Members -/

/-- What follows a type and a name decides between a method and fields. -/
theorem typedMember_agree (kind : BodyKind) :
    Agree P (List.Forall₂ (Member.Alike P)) (typedMember g kind m) (typedMember g kind m') := by
  refine (plainType_alike g).agree.bind fun type type' types => .ahead_bind fun ts ts' same => ?_
  cases same.view₂ with
  | nil | one => exact .neither rfl rfl
  | two name next =>
    refine Agree.ite ?_ ?_ _ _ same
    · refine .seq (.wordExcept _) ?_
      cases kind with
      | annotationBody => exact Alike.agree
      | classBody | interfaceBody => exact .seq (methodRest_agree g modifiers) Alike.agree
    · refine .seq (variablesRest_reads g).agree ?_
      cases kind with
      | classBody => exact .pure (.cons (.field modifiers types) .nil)
      | interfaceBody | annotationBody => exact Alike.agree

/-- Behind type parameters, a constructor is known by the bracket that follows its name. -/
theorem genericMember_agree (kind : BodyKind) :
    Agree P (List.Forall₂ (Member.Alike P)) (genericMember g kind m) (genericMember g kind m') := by
  have method :=
    methodOfType_agree (P := P) g modifiers (R := List.Forall₂ (Member.Alike P)) [.other]
  refine .seq (typeParameters_reads g).agree <| .ahead_bind fun ts ts' same => ?_
  cases kind with
  | interfaceBody => exact method _ _ same
  | annotationBody => exact .neither rfl rfl
  | classBody =>
    cases same.view₂ with
    | nil | one => exact .neither rfl rfl
    | two first second => exact Agree.ite (constructor_alike g).agree method _ _ same

theorem memberRest_agree (kind : BodyKind) :
    Agree P (List.Forall₂ (Member.Alike P)) (memberRest g kind m) (memberRest g kind m') := by
  have typed := typedMember_agree (P := P) g modifiers kind
  refine .ahead_bind fun ts ts' same => ?_
  rw [startsType_sees.eq same, (SeesAlike.head fun t => t.isWordOf "record").eq same,
    (SeesAlike.head fun t => t.isSymbol "<").eq same]
  refine Agree.ite (.seq (typeRest_agree g modifiers) Alike.agree) ?_ _ _ same
  refine .ite (.seq (recordRest_agree g modifiers) Alike.agree) ?_
  refine .ite (genericMember_agree g modifiers kind) ?_
  cases kind with
  | interfaceBody | annotationBody => exact typed
  | classBody =>
    cases same.view₂ with
    | nil | one => exact typed
    | two first second => exact .ite (constructor_alike g).agree (.ite Alike.agree typed)

end Kinds

instance startsStaticBlock_sees : SeesAlike startsStaticBlock where
  eq same := by cases same.view₂ <;> rfl

instance memberRule_alike (kind : BodyKind) :
    Alike P (List.Forall₂ (Member.Alike P)) (memberRule g kind) := by
  have modified : Alike P (List.Forall₂ (Member.Alike P))
      (do let m ← modifiers g; memberRest g kind m) :=
    ⟨(modifiers_alike g).agree.bind fun _ _ modifiers => memberRest_agree g modifiers kind⟩
  unfold memberRule
  infer_instance

end Grammar

end ChangeImpact.Java
