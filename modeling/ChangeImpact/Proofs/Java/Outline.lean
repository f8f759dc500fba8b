import ChangeImpact.Proofs.Java.TypeSyntax

/-!
# Outlines of sources

An outline says what a source declares: its package, its imports, its types and their members,
as far as they can be told without bodies. It can be written down as tokens, and it says by
itself what is known of the source's first type.

## Main definitions

* `Outline.Member`, `Outline.Class`, `Outline`: what a source declares.
* `Outline.tokens`: the tokens of the declarations, without layout.
* `Outline.unit`: what is known of the first type.

## Main statements

* `Outline.tidy_tokens`: an outline consists of words and symbols, and every dot or opening
  bracket stands in front of what may follow it.
-/

namespace ChangeImpact.Java

def commaTokens : List (List Token) → List Token
  | [] => []
  | ts :: more => ts ++ more.flatMap (.ofSymbol "," :: ·)

def annotationTokens (annotations : List DottedName) : List Token :=
  annotations.flatMap fun n => .ofSymbol "@" :: n.tokens

namespace Outline

/-! ## Declarations -/

/-- An import of one class or of all classes of a package, or the same for members of a class. -/
structure Import where
  isStatic : Bool := false
  onDemand : Bool := false
  name : DottedName
deriving DecidableEq

structure Parameter where
  type : TypeExpr
  /-- Whether it stands for any number of values. -/
  spread : Bool := false
  name : Identifier

inductive Member where
  | field (annotations : List DottedName) (isFinal : Bool) (type : TypeExpr) (name : Identifier)
  | constructor (name : Identifier) (parameters : List Parameter)
  /-- A method with an empty body; it is `void` if it has no result. -/
  | method (annotations : List DottedName) (result? : Option TypeExpr) (name : Identifier)
      (parameters : List Parameter)
  /-- A class inside the type. -/
  | nested (annotations : List DottedName) (name : Identifier) (members : List Member)

structure Class where
  annotations : List DottedName := []
  name : Identifier
  members : List Member := []

/-- Whether a type is a class, an enum or a record, and what comes before its members: the
constants of an enum, and whether a semicolon ends them even if no member follows; or the
components of a record. -/
inductive TypeForm where
  | classForm
  | enumForm (constants : List Identifier) (semicolon : Bool)
  | recordForm (components : List Parameter)

end Outline

/-- What a source declares. -/
structure Outline where
  package? : Option DottedName := none
  imports : List Outline.Import := []
  form : Outline.TypeForm
  /-- The first type, which has the form. -/
  first : Outline.Class
  /-- The classes behind the first type. -/
  others : List Outline.Class := []

namespace Outline

/-! ## Tokens of declarations -/

def Import.tokens (i : Import) : List Token :=
  .ofWord "import" :: ((if i.isStatic then [.ofWord "static"] else []) ++ (i.name.tokens
    ++ ((if i.onDemand then [.ofSymbol ".", .ofSymbol "*"] else []) ++ [.ofSymbol ";"])))

/-- The dots of a parameter that stands for several values. -/
def spreadTokens (spread : Bool) : List Token := if spread then [.ofSymbol "..."] else []

def Parameter.tokens (p : Parameter) : List Token :=
  p.type.tokens ++ (spreadTokens p.spread ++ [p.name.token])

def parameterTokens (ps : List Parameter) : List Token :=
  .ofSymbol "(" :: (commaTokens (ps.map Parameter.tokens) ++ [.ofSymbol ")"])

def resultTokens : Option TypeExpr → List Token
  | none => [.ofWord "void"]
  | some type => type.tokens

def emptyBody : List Token := [.ofSymbol "\x7b", .ofSymbol "\x7d"]

/-- A type from its annotations on: the keyword that announces it, its name, what comes before
its braces, and what stands between them. -/
def typeTokens (annotations : List DottedName) (keyword : String) (name : Identifier)
    (header body : List Token) : List Token :=
  annotationTokens annotations ++ (.ofWord keyword :: name.token ::
    (header ++ .ofSymbol "\x7b" :: (body ++ [.ofSymbol "\x7d"])))

mutual

def Member.tokens : Member → List Token
  | .field annotations isFinal type name =>
    annotationTokens annotations ++ ((if isFinal then [.ofWord "final"] else [])
      ++ (type.tokens ++ [name.token, .ofSymbol ";"]))
  | .constructor name parameters => name.token :: (parameterTokens parameters ++ emptyBody)
  | .method annotations result? name parameters =>
    annotationTokens annotations ++ (resultTokens result?
      ++ name.token :: (parameterTokens parameters ++ emptyBody))
  | .nested annotations name members =>
    typeTokens annotations "class" name [] (Member.tokensOfAll members)

def Member.tokensOfAll : List Member → List Token
  | [] => []
  | m :: ms => m.tokens ++ tokensOfAll ms

end

def Class.tokens (c : Class) : List Token :=
  typeTokens c.annotations "class" c.name [] (Member.tokensOfAll c.members)

def firstTokens (form : TypeForm) (c : Class) : List Token :=
  match form with
  | .classForm => c.tokens
  | .enumForm constants semicolon =>
    typeTokens c.annotations "enum" c.name [] (commaTokens (constants.map fun i => [i.token])
      ++ ((if semicolon || !c.members.isEmpty then [.ofSymbol ";"] else [])
        ++ Member.tokensOfAll c.members))
  | .recordForm components =>
    typeTokens c.annotations "record" c.name (parameterTokens components)
      (Member.tokensOfAll c.members)

def packageTokens : Option DottedName → List Token
  | none => []
  | some name => .ofWord "package" :: (name.tokens ++ [.ofSymbol ";"])

variable (o : Outline)

def tokens : List Token :=
  packageTokens o.package? ++ (o.imports.flatMap Import.tokens
    ++ (firstTokens o.form o.first ++ o.others.flatMap Class.tokens))

/-! ## What is known of the first type -/

def simpleNames (annotations : List DottedName) : List String := annotations.map (·.last.text)

def Member.field? : Member → Option Field
  | .field annotations isFinal type _ =>
    some { annotations := simpleNames annotations, isFinal, typeNames := type.names }
  | _ => none

def Member.fieldType? : Member → Option TypeExpr
  | .field _ _ type _ => some type
  | _ => none

def Member.parameters : Member → List Parameter
  | .constructor _ parameters => parameters
  | _ => []

def TypeForm.components : TypeForm → List Parameter
  | .recordForm components => components
  | _ => []

def typeNames (ps : List Parameter) : List String := ps.flatMap (·.type.names)

mutual

/-- Whether a member is a test method or a class that declares one. -/
def Member.declaresTest : Member → Bool
  | .method annotations _ _ _ => (simpleNames annotations).contains "Test"
  | .nested _ _ members => Member.anyDeclaresTest members
  | .field .. | .constructor .. => false

def Member.anyDeclaresTest : List Member → Bool
  | [] => false
  | m :: ms => m.declaresTest || anyDeclaresTest ms

end

/-- The unit of the first type. Its fields and constructors are its direct members, and the
components of a record count as parameters; a test may be declared anywhere. -/
def unit (path : String) : SourceUnit where
  path
  packageName? := o.package?.map DottedName.text
  typeName := o.first.name.text
  annotations := simpleNames o.first.annotations
  imports := (o.imports.filter fun i => !i.isStatic && !i.onDemand).map (·.name.text)
  fields := o.first.members.filterMap Member.field?
  parameterTypes :=
    typeNames o.form.components ++ typeNames (o.first.members.flatMap Member.parameters)
  declaresTest := (o.first :: o.others).any fun c => Member.anyDeclaresTest c.members

end Outline

/-! ## Layout of declarations -/

open Token.Tidy (nil)

theorem tidy_annotationTokens (annotations : List DottedName) :
    Token.Tidy separators (annotationTokens annotations) :=
  .flatMap fun n _ => n.tidy_tokens.symbol "@" (by decide)

/-- With any symbols that include the comma, as lists of names need fewer of them than lists of
parameters. -/
theorem tidy_commaTokens {symbols : List String} {tss : List (List Token)}
    (h : ∀ ts ∈ tss, Token.Tidy symbols ts) (comma : "," ∈ symbols) :
    Token.Tidy symbols (commaTokens tss) := by
  cases tss with
  | nil => exact nil
  | cons ts more =>
    rw [List.forall_mem_cons] at h
    exact h.1.append (.flatMap fun us hus => (h.2 us hus).symbol "," ⟨comma, by decide⟩)

namespace Outline

/-- The asterisk behind the last dot is the one symbol that may follow a dot. -/
theorem Import.tidy_tokens (i : Import) : Token.Tidy separators i.tokens := by
  have isStatic : Token.Tidy separators [Token.ofWord "static"] := nil.word "static" (by decide)
  have onDemand : Token.Tidy separators [Token.ofSymbol ".", .ofSymbol "*"] :=
    (nil.symbol "*" (by decide)).dot (by decide) (.inr (by decide))
  have ending : Token.Tidy separators [Token.ofSymbol ";"] := nil.symbol ";" (by decide)
  exact (isStatic.ite.append (i.name.tidy_tokens.append (onDemand.ite.append ending))).word
    "import" (by decide)

theorem tidy_packageTokens (package? : Option DottedName) :
    Token.Tidy separators (packageTokens package?) := by
  cases package? with
  | none => exact nil
  | some name =>
    exact (name.tidy_tokens.append (nil.symbol ";" (by decide))).word "package" (by decide)

theorem Parameter.tidy_tokens (p : Parameter) : Token.Tidy declarationSymbols p.tokens := by
  have dots : Token.Tidy declarationSymbols [Token.ofSymbol "..."] := nil.symbol "..." (by decide)
  exact p.type.tidy_tokens.append (dots.ite.append (nil.identifier p.name))

theorem tidy_parameterTokens (ps : List Parameter) :
    Token.Tidy declarationSymbols (parameterTokens ps) := by
  have parameters : Token.Tidy declarationSymbols (commaTokens (ps.map Parameter.tokens)) := by
    refine tidy_commaTokens ?_ (by decide)
    rw [List.forall_mem_map]
    exact fun p _ => p.tidy_tokens
  exact (parameters.append (nil.symbol ")" (by decide))).symbol "(" (by decide)

theorem tidy_resultTokens (result? : Option TypeExpr) :
    Token.Tidy declarationSymbols (resultTokens result?) := by
  cases result? with
  | none => exact nil.word "void" (by decide)
  | some type => exact type.tidy_tokens

theorem tidy_emptyBody : Token.Tidy declarationSymbols emptyBody :=
  (nil.symbol "\x7d" (by decide)).symbol "\x7b" (by decide)

theorem tidy_typeTokens (annotations : List DottedName) {keyword : String} (name : Identifier)
    {header body : List Token} (isWord : isWordText keyword = true)
    (tidyHeader : Token.Tidy declarationSymbols header)
    (tidyBody : Token.Tidy declarationSymbols body) :
    Token.Tidy declarationSymbols (typeTokens annotations keyword name header body) := by
  have braces := (tidyBody.append (nil.symbol "\x7d" (by decide))).symbol "\x7b" (by decide)
  exact ((tidy_annotationTokens annotations).mono separators_subset).append
    (((tidyHeader.append braces).identifier name).word keyword isWord)

mutual

theorem Member.tidy_tokens : (m : Member) → Token.Tidy declarationSymbols m.tokens
  | .field annotations isFinal type name => by
    have ending : Token.Tidy declarationSymbols [Token.ofSymbol ";"] := nil.symbol ";" (by decide)
    have final : Token.Tidy declarationSymbols [Token.ofWord "final"] :=
      nil.word "final" (by decide)
    rw [Member.tokens]
    exact ((tidy_annotationTokens annotations).mono separators_subset).append
      (final.ite.append (type.tidy_tokens.append (ending.identifier name)))
  | .constructor name parameters => by
    rw [Member.tokens]
    exact ((tidy_parameterTokens parameters).append tidy_emptyBody).identifier name
  | .method annotations result? name parameters => by
    have rest := ((tidy_parameterTokens parameters).append tidy_emptyBody).identifier name
    rw [Member.tokens]
    exact ((tidy_annotationTokens annotations).mono separators_subset).append
      ((tidy_resultTokens result?).append rest)
  | .nested annotations name members => by
    rw [Member.tokens]
    exact tidy_typeTokens annotations name (by decide) nil (Member.tidy_tokensOfAll members)

theorem Member.tidy_tokensOfAll :
    (ms : List Member) → Token.Tidy declarationSymbols (Member.tokensOfAll ms)
  | [] => nil
  | m :: ms => m.tidy_tokens.append (tidy_tokensOfAll ms)

end

theorem Class.tidy_tokens (c : Class) : Token.Tidy declarationSymbols c.tokens :=
  tidy_typeTokens c.annotations c.name (by decide) nil (Member.tidy_tokensOfAll c.members)

theorem tidy_constants (constants : List Identifier) :
    Token.Tidy separators (commaTokens (constants.map fun i => [i.token])) := by
  refine tidy_commaTokens ?_ (by decide)
  rw [List.forall_mem_map]
  exact fun i _ => nil.identifier i

theorem tidy_firstTokens (form : TypeForm) (c : Class) :
    Token.Tidy declarationSymbols (firstTokens form c) := by
  have members := Member.tidy_tokensOfAll c.members
  cases form with
  | classForm => exact c.tidy_tokens
  | enumForm constants semicolon =>
    have ended : Token.Tidy declarationSymbols [Token.ofSymbol ";"] := nil.symbol ";" (by decide)
    exact tidy_typeTokens c.annotations c.name (by decide) nil
      (((tidy_constants constants).mono separators_subset).append (ended.ite.append members))
  | recordForm components =>
    exact tidy_typeTokens c.annotations c.name (by decide) (tidy_parameterTokens components) members

/-- Every dot or opening bracket of an outline stands in front of what may follow it. -/
theorem tidy_tokens (o : Outline) : Token.Tidy declarationSymbols o.tokens :=
  ((tidy_packageTokens o.package?).mono separators_subset).append
    ((Token.Tidy.flatMap fun i _ => i.tidy_tokens.mono separators_subset).append
      ((tidy_firstTokens o.form o.first).append (.flatMap fun c _ => c.tidy_tokens)))

end Outline

end ChangeImpact.Java
