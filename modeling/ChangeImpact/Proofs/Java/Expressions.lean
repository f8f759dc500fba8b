import ChangeImpact.Java.Grammar.Expression
import ChangeImpact.Proofs.Java.Types

/-!
# Expressions without their layout

The rules for expressions read nothing of which layout is a part. What layout may decide
is whether closing angle brackets and an equals sign are one operator, and these stand
close together in both sources or in neither.

## Main statements

* `Grammar.closingAngles_eq`, `Grammar.equalsJoined_eq`: the same operator is next in both.
* `Grammar.expressionRule_reads`: expressions are read alike.
-/

namespace ChangeImpact.Java.Grammar

open ChangeImpact.Java.Parser

variable {P : SourcePair} {before ts ts' : List Token} (g : Grammar) [g.Uniform]

instance nextIsIn_reads (words : List String) : ReadsAlike P (nextIsIn words) :=
  inferInstanceAs (ReadsAlike P (nextIs _))

instance typeOverExpression_alike : Alike P (TypeRef.Alike P) (typeOverExpression g) := by
  unfold typeOverExpression
  infer_instance

/-! ## Operators -/

theorem closingAngles_eq (same : P.Ahead ts ts') : closingAngles ts = closingAngles ts' := by
  obtain ⟨before, same⟩ := same
  rcases ts with _ | ⟨first, _ | ⟨second, _ | ⟨third, rest⟩⟩⟩
  · rw [same.eq_nil]
  · obtain ⟨_, _, rfl, -, -, more⟩ := same.cons_inv
    rw [more.eq_nil]
    rfl
  · obtain ⟨_, _, rfl, -, -, more⟩ := same.cons_inv
    obtain ⟨_, _, rfl, close, -, more⟩ := more.cons_inv
    rw [more.eq_nil]
    simp only [Token.fuses] at close
    simp only [closingAngles, Token.relaid_isSymbol]
    grind
  · obtain ⟨_, _, rfl, -, -, more⟩ := same.cons_inv
    obtain ⟨_, _, rfl, close, -, more⟩ := more.cons_inv
    obtain ⟨_, _, rfl, close', -⟩ := more.cons_inv
    simp only [Token.fuses] at close close'
    simp only [closingAngles, Token.relaid_isSymbol]
    grind

/-- The last token that is counted is a closing angle bracket. -/
theorem closingAngles_last {n : Nat} (h : closingAngles ts = n + 1) :
    ∃ angle, ts[n]? = some angle ∧ angle.isSymbol ">" = true := by
  revert h
  fun_cases closingAngles ts <;> intro h <;> cases h <;> simp_all

/-- Whether an equals sign joins closing angle brackets does not depend on the layout that is
free. -/
theorem equalsJoined_eq {n : Nat} (same : P.Ahead ts ts') (angles : closingAngles ts = n + 1) :
    equalsJoined (ts.drop (n + 1)) = equalsJoined (ts'.drop (n + 1)) := by
  obtain ⟨before, same⟩ := same
  obtain ⟨angle, at_n, isAngle⟩ := closingAngles_last angles
  obtain ⟨before', rest⟩ := same.drop_succ at_n
  generalize ts.drop (n + 1) = us, ts'.drop (n + 1) = us' at rest
  cases us with
  | nil => rw [rest.eq_nil]
  | cons t us =>
    obtain ⟨layout, _, rfl, close, -⟩ := rest.cons_inv
    simp only [Token.fuses] at close
    simp only [equalsJoined, List.head?_cons, Option.any_some, Token.relaid_isSymbol]
    grind

instance takeTokens_reads (n : Nat) : ReadsAlike P (takeTokens n) := by
  induction n with
  | zero => exact inferInstanceAs (ReadsAlike P (pure ()))
  | succ n ih => exact inferInstanceAs (ReadsAlike P (_ >>= fun _ => takeTokens n))

instance binaryOperator_reads : ReadsAlike P binaryOperator := by
  refine ⟨.ahead_bind fun ts ts' same => ?_⟩
  rw [← closingAngles_eq same]
  cases angles : closingAngles ts with
  | zero => exact Alike.agreesAt same
  | succ n =>
    simp only [equalsJoined_eq same angles]
    exact Alike.agreesAt same

instance assignmentOperator_reads : ReadsAlike P assignmentOperator := by
  refine ⟨.ahead_bind fun ts ts' same => ?_⟩
  rw [← closingAngles_eq same]
  cases angles : closingAngles ts with
  | zero => exact Alike.agreesAt same
  | succ n =>
    simp only [equalsJoined_eq same angles]
    exact Alike.agreesAt same

/-! ## Parts -/

instance arguments_reads : ReadsAlike P (arguments g) := by
  unfold arguments
  infer_instance

instance parenthesized_reads : ReadsAlike P (parenthesized g) := by
  unfold parenthesized
  infer_instance

instance block_reads : ReadsAlike P (block g) := by
  unfold block
  infer_instance

instance members_alike (close : String) (kind : BodyKind) :
    Alike P (List.Forall₂ (Member.Alike P)) (do
      let members ← upTo close (g.member kind)
      return members.flatten) :=
  ⟨((Uniform.member P kind).agree.upTo close).bind fun _ _ alikes =>
    .pure (List.rel_flatten alikes)⟩

instance classBody_alike : Alike P (List.Forall₂ (Member.Alike P)) (classBody g) := by
  unfold classBody
  infer_instance

instance classBody_takes : TakesAlike P (classBody g) := (classBody_alike g).agree.takesAlike

instance arrayInitializer_reads : ReadsAlike P (arrayInitializer g) := by
  unfold arrayInitializer
  infer_instance

/-! ## Variables and parameters -/

instance variableName_reads (taken : List String) : ReadsAlike P (variableName g taken) := by
  unfold variableName
  infer_instance

instance variableDeclarator_reads : ReadsAlike P (variableDeclarator g) := by
  unfold variableDeclarator
  infer_instance

instance receiverParameter_reads : ReadsAlike P (receiverParameter g) := by
  unfold receiverParameter
  infer_instance

instance parameter_alike (first : Bool) : Alike P (TypeRef.Alike P) (parameter g first) := by
  refine ⟨(innerModifiers_alike g).agree.bind fun m m' modifiers =>
    (plainType_alike g).agree.bind fun type type' types => ?_⟩
  rw [modifiers.keywords_eq]
  have done : Agree P (TypeRef.Alike P) (pure type) (pure type') := .pure types
  refine (Agree.nextIs fun t => t.isSymbol "...").bind ?_
  rintro variadic _ rfl
  exact .ite (.seq (.symbol _) <| .seq (annotations_takes g).agree <|
    .seq (variableDeclarator_reads g).agree done) (.seq (variableName_reads g _).agree done)

instance parametersRest_alike (first : Bool) :
    Alike P (List.Forall₂ (TypeRef.Alike P)) (parametersRest g first) := by
  refine ⟨(Agree.nextIs fun t => t.isSymbol ")").bind ?_⟩
  rintro closes _ rfl
  refine .ite (.seq (.symbol _) (.pure .nil)) ?_
  have further : Agree P (TypeRef.Alike P) (do symbol ","; parameter g false)
      (do symbol ","; parameter g false) :=
    .seq (.symbol _) (parameter_alike g false).agree
  exact (parameter_alike g first).agree.bind fun _ _ type => further.many.bind fun _ _ types =>
    .seq (.symbol _) (.pure (.cons type types))

instance parameters_alike : Alike P (List.Forall₂ (TypeRef.Alike P)) (parameters g) := by
  refine ⟨.seq (.symbol _) <| (receiverParameter_reads g).agree.optional.bind ?_⟩
  rintro _ _ (_ | _)
  · refine (Agree.nextIs fun t => t.isSymbol ")").bind ?_
    rintro closes _ rfl
    exact .ite (.seq (.symbol _) (.pure .nil))
      (.seq (.symbol _) (parametersRest_alike g false).agree)
  · exact (parametersRest_alike g true).agree

instance parameters_takes : TakesAlike P (parameters g) := (parameters_alike g).agree.takesAlike

/-! ## Lambda expressions -/

instance lambdaParameters_reads : ReadsAlike P (lambdaParameters g) := by
  refine ⟨.ahead_bind fun ts ts' same => ?_⟩
  cases same.view₂ <;> exact Alike.agreesAt same

/-! ## Object and array creation -/

instance arrayCreation_reads : ReadsAlike P (arrayCreation g) := by
  unfold arrayCreation
  infer_instance

instance creation_reads (inner : Bool) : ReadsAlike P (creation g inner) := by
  refine ⟨.seq (.keyword _) <| .seq (annotations_takes g).agree <|
    ((typeArguments_alike g).agree.when "<").bind fun _ _ withArguments => ?_⟩
  rw [isSome_eq_of_rel withArguments]
  exact Alike.agree

/-! ## Switch -/

instance patternVariable_reads (taken : List String) : ReadsAlike P (patternVariable g taken) := by
  unfold patternVariable
  infer_instance

instance patternComponent_reads : ReadsAlike P (patternComponent g) := by
  unfold patternComponent
  infer_instance

instance recordPatternExcept_reads (taken : List String) :
    ReadsAlike P (recordPatternExcept g taken) := by
  have named : ReadsAlike P (do
      match ← simpleType g with
      | .generic _ _ => nextIsSymbol "("
      | _ => fail) := by
    refine ⟨(simpleType_alike g).agree.bind fun _ _ alike => ?_⟩
    cases alike <;> exact Alike.agree
  unfold recordPatternExcept
  infer_instance

instance recordPatternRule_reads : ReadsAlike P (recordPatternRule g) :=
  recordPatternExcept_reads g primitiveWords

instance switchLabel_reads (use : ArrowUse) : ReadsAlike P (switchLabel g use) := by
  have guarded : ReadsAlike P (do
      let _ ← whenWord "when" (do keyword "when"; g.expression use)
      let ended ← nextIs fun t => t.isSymbol ":" || t.isSymbol "->"
      if ended then pure () else fail) := inferInstance
  unfold switchLabel
  dsimp only
  infer_instance

instance startsLabel_sees : SeesAlike startsLabel where
  eq same := by cases same.view₂ <;> rfl

instance labelledStatement_reads : ReadsAlike P (labelledStatement g) := by
  unfold labelledStatement
  infer_instance

instance ruleBody_reads : ReadsAlike P (ruleBody g) := by
  unfold ruleBody
  infer_instance

instance switchRule_reads : ReadsAlike P (switchRule g) := by
  unfold switchRule
  infer_instance

instance colonLabel_reads : ReadsAlike P (colonLabel g) := by
  unfold colonLabel
  infer_instance

instance switchBlock_reads : ReadsAlike P (switchBlock g) := by
  unfold switchBlock
  infer_instance

instance switchForm_reads : ReadsAlike P (switchForm g) := by
  unfold switchForm
  infer_instance

/-! ## Primary expressions -/

instance referenceEnd_reads : ReadsAlike P (referenceEnd g) := by
  unfold referenceEnd
  infer_instance

instance typeForm_reads : ReadsAlike P (typeForm g) := by
  refine ⟨.ahead_bind fun ts ts' same => ?_⟩
  refine ((typeOverExpression_alike g).agree ts ts' same).bind fun type type' n types =>
    .ahead_bind ?_
  have taken_eq : ts.length - (ts.drop n).length = ts'.length - (ts'.drop n).length := by
    rw [same.length_eq, (same.drop n).length_eq]
  have read_eq := same.all_take_eq (ts'.length - (ts'.drop n).length)
    fun t => t.isWord || t.isSymbol "."
  simp only [taken_eq, read_eq, (SeesAlike.head fun t => t.isWord).eq same]
  cases types <;> exact Alike.agreesAt (same.drop n)

instance template_reads : ReadsAlike P (template g) := by
  unfold template
  infer_instance

instance stringLiteral_reads : ReadsAlike P (stringLiteral g) := by
  unfold stringLiteral
  infer_instance

instance superMember_reads : ReadsAlike P (superMember g) := by
  refine ⟨(Agree.nextIs fun t => t.isWordOf "this").bind ?_⟩
  rintro isThis _ rfl
  refine .ite Alike.agree <|
    ((typeArguments_alike g).agree.when "<").bind fun _ _ withArguments => ?_
  rw [isSome_eq_of_rel withArguments]
  exact Alike.agree

instance superForm_reads : ReadsAlike P (superForm g) := by
  unfold superForm
  infer_instance

instance primaryHead_reads : ReadsAlike P (primaryHead g) := by
  refine ⟨.ahead_bind fun ts ts' same => ?_⟩
  cases same.view with
  | nil => exact Alike.agreesAt same
  | cons t layout more =>
    simp only [Token.relaid_kind, Token.relaid_text, Token.relaid_isSymbol,
      (SeesAlike.head fun t => t.isSymbol "(").eq more,
      (SeesAlike.head fun t => t.isWord && modifierOnlyWords.contains t.text).eq more]
    cases t.kind <;> exact Alike.agreesAt same

instance primarySuffix_reads : ReadsAlike P (primarySuffix g) := by
  refine ⟨.ahead_bind fun ts ts' same => ?_⟩
  cases same.view₂ <;> exact Alike.agreesAt same

instance primary_reads : ReadsAlike P (primary g) := by
  unfold primary
  infer_instance

/-! ## Whole expressions -/

instance trailingOperator_reads (use : ArrowUse) : ReadsAlike P (trailingOperator g use) := by
  unfold trailingOperator
  dsimp only
  infer_instance

instance expressionTail_reads (use : ArrowUse) : ReadsAlike P (expressionTail g use) := by
  have operand (o : Option Unit) : ReadsAlike P (match o with
      | some _ => g.expression use
      | none => pure ()) := by
    cases o <;> infer_instance
  unfold expressionTail
  infer_instance

instance lambdaBody_reads (use : ArrowUse) : ReadsAlike P (lambdaBody g use) := by
  unfold lambdaBody
  infer_instance

instance operation_reads (use : ArrowUse) : ReadsAlike P (operation g use) := by
  have rest (assigned : Option Unit) : ReadsAlike P (match assigned with
      | some _ => g.expression use
      | none => expressionTail g use) := by
    cases assigned <;> infer_instance
  unfold operation
  infer_instance

instance stopsCast_sees (use : ArrowUse) : SeesAlike (stopsCast use) where
  eq same := by
    cases same.view₂ with
    | nil | one => rfl
    | two first second =>
      by_cases steps : first.isSymbol "++" || first.isSymbol "--" <;> simp [stopsCast, steps]

instance cast_reads (use : ArrowUse) : ReadsAlike P (cast g use) := by
  have lambdaOrOperation : ReadsAlike P (do
      match ← ahead with
      | first :: second :: _ =>
        if first.isWord && !expressionWords.contains first.text && second.isSymbol "->" then
          let _ ← word
          symbol "->"
          lambdaBody g use
        else
          orElse (do lambdaParameters g; lambdaBody g use) fun _ => operation g use
      | _ => fail) := by
    refine ⟨.ahead_bind fun ts ts' same => ?_⟩
    cases same.view₂ <;> exact Alike.agreesAt same
  have further : Agree P (TypeRef.Alike P) (do symbol "&"; typeRef g) (do symbol "&"; typeRef g) :=
    Alike.agree
  refine ⟨.seq (.symbol _) <| .guard (nextIsIn_reads _).agree <|
    .seq (annotations_takes g).agree <| .guard (nextIsIn_reads _).agree <|
    .seq (plainTypeExcept_alike g _).agree <| further.many.bind fun more more' alikes => ?_⟩
  rw [isEmpty_eq_of_forall₂ alikes]
  exact Alike.agree

instance expressionRule_reads (use : ArrowUse) : ReadsAlike P (expressionRule g use) := by
  refine ⟨.ahead_bind fun ts ts' same => ?_⟩
  cases same.view with
  | nil => exact Alike.agreesAt same
  | cons t layout more =>
    simp only [Token.relaid_kind, Token.relaid_text, Token.relaid_isSymbol, Token.relaid_isWord,
      Token.relaid_isWordOf, (SeesAlike.head fun t => t.isSymbol "->").eq more]
    exact Alike.agreesAt same

instance initializerRule_reads : ReadsAlike P (initializerRule g) := by
  unfold initializerRule
  infer_instance

instance elementValueRule_reads : ReadsAlike P (elementValueRule g) := by
  unfold elementValueRule
  dsimp only
  infer_instance

end ChangeImpact.Java.Grammar
