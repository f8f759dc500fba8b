import ChangeImpact.Java.Grammar.Statement
import ChangeImpact.Proofs.Java.Declarations

/-!
# Statements without their layout

A unit holds the names of packages and imports in full, with the layout inside them. So
what is read of such a name is where it stands.

## Main statements

* `Grammar.packageRest_alike`, `Grammar.importRule_alike`: names of packages and imports are
  cut out at the same place of both sources.
* `Grammar.item_alike`: what stands at the top of a source is read alike.
-/

namespace ChangeImpact.Java

/-- Two items at the top of a source are of the same kind, and the names in them stand at the same
places. -/
inductive Item.Alike (P : SourcePair) : Item → Item → Prop
  | package {name name' : String} (same : P.Path name name') :
      Alike P (.package name) (.package name')
  | imported (isStatic onDemand : Bool) {name name' : String} (same : P.Path name name') :
      Alike P (.imported isStatic onDemand name) (.imported isStatic onDemand name')
  | type {d d' : TypeDeclaration} (declarations : d.Alike P d') : Alike P (.type d) (.type d')
  | other : Alike P .other .other

instance Item.Alike.isRefl (P : SourcePair) : Std.Refl (Item.Alike P) where
  refl
    | .package name => .package (refl name)
    | .imported isStatic onDemand name => .imported isStatic onDemand (refl name)
    | .type d => .type (refl d)
    | .other => .other

instance (priority := low) Item.alike_of_reads {P : SourcePair} {p : Parser Item}
    [h : Parser.ReadsAlike P p] : Parser.Alike P (Item.Alike P) p :=
  ⟨h.agree.mono fun i _ eq => eq ▸ refl i⟩

/-! ## Names of packages and imports -/

namespace Grammar

open ChangeImpact.Java.Parser

variable {P : SourcePair} {before ts ts' : List Token}

/-- Behind the keyword of a package or an import, the name is cut out at one place of both. -/
theorem qualifiedName_agreesAt_inPath (same : P.At before ts ts')
    (inPath : Token.endsInPath before = true) :
    AgreesAt (fun name name' _ => P.Path name name') qualifiedName qualifiedName ts ts' := by
  refine (qualifiedName_agreesAt same).mono ?_
  rintro _ _ n ⟨dotted, left, right⟩
  exact .inr ⟨before, ts, ts', n, same, inPath, dotted, left, right⟩

instance packageRest_alike : Alike P (Item.Alike P) packageRest := by
  refine ⟨?_⟩
  rintro ts ts' ⟨before, same⟩
  refine .keyword_bind "package" same fun t layout rest rest' isPackage _ _ more => ?_
  have inPath : Token.endsInPath (t :: before) = true :=
    Token.endsInPath_of_isWordOf (.inl isPackage)
  refine (qualifiedName_agreesAt_inPath more inPath).bind fun _ _ n path => ?_
  exact (Agree.symbol ";").seq (.pure (.package path)) _ _ ⟨_, more.drop n⟩

/-- The name of an import may come behind the word `static`. -/
theorem static_agreesAt (same : P.At before ts ts') (inPath : Token.endsInPath before = true) :
    AgreesAt (fun o o' n => o = o' ∧ Token.endsInPath ((ts.take n).reverse ++ before) = true)
      (whenWord "static" (keyword "static")) (whenWord "static" (keyword "static")) ts ts' := by
  refine .nextIs_bind _ ⟨_, same⟩ fun isStatic => ?_
  split
  · refine .take_bind (fun _ => ()) (fun t => t.isWordOf "static") same ?_
    rintro t layout rest rest' isStatic rfl rfl -
    refine .pure ⟨rfl, Token.endsInPath_cons ?_ inPath⟩
    rw [Token.isWord, ((Bool.and_eq_true _ _).mp isStatic).1, Bool.true_or]
  · exact .pure ⟨rfl, inPath⟩

instance importRule_alike : Alike P (Item.Alike P) importRule := by
  refine ⟨?_⟩
  rintro ts ts' ⟨before, same⟩
  refine .keyword_bind "import" same fun t layout rest rest' isImport _ _ more => ?_
  have inPath : Token.endsInPath (t :: before) = true :=
    Token.endsInPath_of_isWordOf (.inr isImport)
  refine (static_agreesAt more inPath).bind ?_
  rintro isStatic _ n ⟨rfl, inPath⟩
  refine (qualifiedName_agreesAt_inPath (more.drop n) inPath).bind fun _ _ k path => ?_
  refine (Alike.agreesAt (R := Eq) ⟨_, (more.drop n).drop k⟩).bind ?_
  rintro onDemand _ j rfl
  exact (Agree.symbol ";").seq (.pure (.imported _ _ path)) _ _ ⟨_, ((more.drop n).drop k).drop j⟩

instance moduleDirective_reads : ReadsAlike P moduleDirective := by
  refine ⟨(Agree.wordExcept []).bind ?_⟩
  rintro directive _ rfl
  split <;> exact Alike.agree

instance moduleRest_reads : ReadsAlike P moduleRest := by
  unfold moduleRest
  infer_instance

/-! ## Declarations among statements -/

variable (g : Grammar) [g.Uniform] {m m' : Modifiers}

instance typeBeforeName_reads : ReadsAlike P (typeBeforeName g) := by
  refine ⟨.guard (nextIsIn_reads _).agree <| (plainTypeExcept_alike g _).agree.bind
    fun _ _ types => ?_⟩
  cases types <;> exact Alike.agree

/-- The word that comes next decides on the kind of declaration, and the modifiers on what is
allowed. -/
theorem declarationRest_agree (top : Bool) (modifiers : m.Alike m') :
    Agree P (Item.Alike P) (declarationRest g top m) (declarationRest g top m') := by
  have method := methodRest_agree (P := P) g modifiers
  refine .ahead_bind fun ts ts' same => ?_
  rw [startsType_sees.eq same, (SeesAlike.head fun t => t.isWordOf "record").eq same,
    (SeesAlike.head fun t => t.isWordOf "package").eq same,
    (SeesAlike.head fun t => t.isWordOf "module" || t.isWordOf "open").eq same,
    (SeesAlike.head fun t => t.isSymbol "<").eq same, modifiers.keywords_eq, modifiers.isEmpty_eq]
  refine Agree.ite ((typeRest_agree g modifiers).bind fun _ _ d => .pure (.type d)) ?_ _ _ same
  refine .ite ((recordRest_agree g modifiers).bind fun _ _ d => .pure (.type d)) ?_
  refine .ite Alike.agree <| .ite Alike.agree <| .ite ?_ ?_
  · exact .seq (typeParameters_reads g).agree
      (methodOfType_agree g modifiers (R := Item.Alike P) .other)
  refine .ite (.seq (typeBeforeName_reads g).agree ?_) (.seq (plainType_alike g).agree ?_)
  -- What follows the type is the same, whichever way the type was read.
  all_goals
    refine .ahead_bind fun ts ts' same => ?_
    cases same.view₂ with
    | nil | one => exact .neither rfl rfl
    | two name next =>
      exact Agree.ite (.seq (.wordExcept _) <| .seq method Alike.agree) Alike.agree _ _ same

instance expressionStatement_reads : ReadsAlike P (expressionStatement g) := by
  unfold expressionStatement
  infer_instance

instance declarationRest_alike (top : Bool) (m : Modifiers) :
    Alike P (Item.Alike P) (declarationRest g top m) :=
  ⟨declarationRest_agree g top ⟨rfl, rfl⟩⟩

instance plainStatement_alike (top : Bool) : Alike P (Item.Alike P) (plainStatement g top) := by
  unfold plainStatement
  infer_instance

/-! ## Compound statements -/

instance catchClause_reads : ReadsAlike P (catchClause g) := by
  unfold catchClause
  infer_instance

instance finallyClause_reads : ReadsAlike P (finallyClause g) := by
  unfold finallyClause
  infer_instance

instance resource_reads : ReadsAlike P (resource g) := by
  have target (reserved : Bool) (target : Target) : ReadsAlike P (match target with
      | .variable => if reserved then fail else pure ()
      | .field => pure ()
      | _ => fail) := by
    cases target <;> infer_instance
  unfold resource
  refine ⟨.orElse ((innerModifiers_alike g).agree.bind fun m m' modifiers => ?_) Alike.agree⟩
  rw [modifiers.isEmpty_eq]
  exact Alike.agree

instance tryStatement_reads : ReadsAlike P (tryStatement g) := by
  unfold tryStatement
  infer_instance

instance loopVariableType_reads : ReadsAlike P (loopVariableType g) := by
  refine ⟨(innerModifiers_alike g).agree.bind fun m m' modifiers => ?_⟩
  rw [modifiers.isEmpty_eq]
  exact Alike.agree

instance elementsHead_reads : ReadsAlike P (elementsHead g) := by
  unfold elementsHead
  infer_instance

instance counterHead_reads : ReadsAlike P (counterHead g) := by
  have expressions : ReadsAlike P (do let _ ← separated "," (g.expression .lambda)) := inferInstance
  have update : ReadsAlike P (do
      if ← nextIsSymbol ")" then pure ()
      else
        let _ ← separated "," (g.expression .lambda)) := inferInstance
  unfold counterHead
  dsimp only
  infer_instance

instance forStatement_reads : ReadsAlike P (forStatement g) := by
  unfold forStatement
  infer_instance

instance switchStatement_reads : ReadsAlike P (switchStatement g) := by
  unfold switchStatement
  infer_instance

instance jump_reads (text : String) : ReadsAlike P (jump text) := by
  unfold jump
  infer_instance

instance ifStatement_reads : ReadsAlike P (ifStatement g) := by
  unfold ifStatement
  infer_instance

instance whileStatement_reads : ReadsAlike P (whileStatement g) := by
  unfold whileStatement
  infer_instance

instance doStatement_reads : ReadsAlike P (doStatement g) := by
  unfold doStatement
  infer_instance

instance synchronizedStatement_reads : ReadsAlike P (synchronizedStatement g) := by
  unfold synchronizedStatement
  infer_instance

/-! ## Simple statements -/

instance returnStatement_reads : ReadsAlike P (returnStatement g) := by
  unfold returnStatement
  infer_instance

instance valueStatement_reads (text : String) : ReadsAlike P (valueStatement g text) := by
  unfold valueStatement
  infer_instance

instance assertStatement_reads : ReadsAlike P (assertStatement g) := by
  unfold assertStatement
  infer_instance

instance labelStatement_reads : ReadsAlike P (labelStatement g) := by
  unfold labelStatement
  infer_instance

/-! ## All statements -/

instance nothingDeclared_alike (p : Parser Unit) [ReadsAlike P p] :
    Alike P (Item.Alike P) (nothingDeclared p) := by
  unfold nothingDeclared
  infer_instance

instance modifiedDeclaration_alike (top : Bool) :
    Alike P (Item.Alike P) (modifiedDeclaration g top) :=
  ⟨(modifiers_alike g).agree.bind fun _ _ modifiers => declarationRest_agree g top modifiers⟩

instance symbolItem_alike (top : Bool) (text : String) :
    Alike P (Item.Alike P) (symbolItem g top text) := by
  unfold symbolItem
  infer_instance

/-- Besides the word itself, only `non-sealed` and a colon behind it decide. -/
theorem wordItem_agree (top : Bool) {t : Token} {layout : List Char} {rest rest' : List Token}
    (same : P.Ahead (t :: rest) (t.relaid layout :: rest')) :
    Agree P (Item.Alike P) (wordItem g top t rest) (wordItem g top (t.relaid layout) rest') := by
  have more : P.Ahead rest rest' := same.drop 1
  unfold wordItem
  rw [startsNonSealed_sees.eq same, (SeesAlike.head fun t => t.isSymbol ":").eq more]
  exact Alike.agree

theorem wordOrExpression_agree {rest rest' : List Token} (same : P.Ahead rest rest')
    (p : Parser Item) [Alike P (Item.Alike P) p] :
    Agree P (Item.Alike P) (wordOrExpression g rest p) (wordOrExpression g rest' p) := by
  unfold wordOrExpression
  rw [(SeesAlike.head fun t => t.isWordOf "instanceof").eq same]
  exact Alike.agree

instance record_alike : Alike P (Item.Alike P) (do return .type (← recordRest g {})) :=
  ⟨(recordRest_agree g ⟨rfl, rfl⟩).bind fun _ _ d => .pure (.type d)⟩

theorem keywordItem_agree (top : Bool) {t : Token} {layout : List Char} {rest rest' : List Token}
    (same : P.Ahead (t :: rest) (t.relaid layout :: rest')) :
    Agree P (Item.Alike P) (keywordItem g top t rest)
      (keywordItem g top (t.relaid layout) rest') := by
  have more : P.Ahead rest rest' := same.drop 1
  unfold keywordItem
  rw [Token.relaid_text]
  split
  any_goals exact Alike.agree
  any_goals exact wordOrExpression_agree g more _
  · rw [(SeesAlike.head fun t => t.isSymbol "(").eq more]
    exact Alike.agree
  · exact wordItem_agree g top same

instance item_alike (top : Bool) : Alike P (Item.Alike P) (item g top) := by
  refine ⟨.ahead_bind fun ts ts' same => ?_⟩
  cases same.view with
  | nil => exact .neither rfl rfl
  | cons t layout more =>
    have word := keywordItem_agree g top same
    simp only [Token.relaid_kind, Token.relaid_text]
    cases t.kind with
    | word => exact word _ _ same
    | _ => exact Alike.agreesAt same

instance statementRule_reads : ReadsAlike P (statementRule g) := by
  refine ⟨(item_alike g false).agree.bind fun _ _ _ => .pure rfl⟩

end Grammar

end ChangeImpact.Java
