import ChangeImpact.Java.Grammar.Expression

/-!
# Declarations

Members and type declarations are told apart by the tokens behind their
modifiers, so each is read once.
-/

namespace ChangeImpact.Java.Grammar

open ChangeImpact.Java.Parser

/-! ## Methods and constructors -/

def throwsClause (g : Grammar) : Parser Unit := do
  let _ ← whenWord "throws" (do keyword "throws"; typeList g)

/-- A method from its parameters on. A test method is noted. -/
def methodRest (g : Grammar) (m : Modifiers) : Parser Unit := do
  let _ ← parameters g
  let _ ← many (dimension g)
  throwsClause g
  if ← nextIsSymbol ";" then symbol ";" else block g
  note m.marksTest

/-- A call of another constructor, at the start of a constructor. -/
def constructorCall (g : Grammar) : Parser Unit :=
  let own := do
    let _ ← when "<" (typeArguments g)
    let _ ← satisfy fun t => t.isWordOf "this" || t.isWordOf "super"
  let outer := do
    let _ ← primary g
    symbol "."
    let _ ← when "<" (typeArguments g)
    keyword "super"
  orElse (do own; arguments g; symbol ";") fun _ => do
    outer
    arguments g
    symbol ";"

def constructorBody (g : Grammar) : Parser Unit := do
  symbol "\x7b"
  let _ ← optional (constructorCall g)
  let _ ← upTo "\x7d" g.statement

/-- A constructor from its name on: its parameters' types. -/
def constructorRest (g : Grammar) : Parser (List TypeRef) := do
  let _ ← word
  let types ← parameters g
  throwsClause g
  constructorBody g
  return types

/-- Variables of one type from the first name on, up to the semicolon. -/
def variablesRest (g : Grammar) : Parser Unit := do
  let _ ← separated "," (variableDeclarator g)
  symbol ";"

/-! ## Type declarations -/

/-- Whether a type declaration is next, behind its modifiers. -/
def startsType : List Token → Bool
  | t :: _ =>
    t.isWordOf "class" || t.isWordOf "interface" || t.isWordOf "enum" || t.isSymbol "@interface"
  | [] => false

/-- The types that a type declaration names behind a keyword. -/
def typesAfter (g : Grammar) (text : String) : Parser Unit := do
  let _ ← whenWord text (do keyword text; typeList g)

def plainBody (g : Grammar) (kind : BodyKind) : Parser (List Member) := do
  symbol "\x7b"
  let members ← upTo "\x7d" (g.member kind)
  return members.flatten

def enumConstant (g : Grammar) : Parser Unit := do
  let _ ← innerModifiers g
  let _ ← wordExcept modifierWords
  let _ ← when "(" (arguments g)
  let _ ← when "\x7b" (classBody g)

/-- The constants of an enum and, behind a semicolon, its members. -/
def enumBody (g : Grammar) : Parser (List Member) := do
  symbol "\x7b"
  let ended ← nextIs fun t => t.isSymbol "," || t.isSymbol ";" || t.isSymbol "\x7d"
  if !ended then
    let _ ← separated "," (enumConstant g)
  let _ ← when "," (symbol ",")
  if ← nextIsSymbol ";" then
    symbol ";"
    let members ← upTo "\x7d" (g.member .classBody)
    return members.flatten
  else
    symbol "\x7d"
    return []

def classRest (g : Grammar) (m : Modifiers) : Parser TypeDeclaration := do
  keyword "class"
  let name ← word
  let _ ← when "<" (typeParameters g)
  let _ ← whenWord "extends" (do keyword "extends"; typeRef g)
  typesAfter g "implements"
  typesAfter g "permits"
  let members ← classBody g
  return { kind := .classType, name, modifiers := m, members }

def interfaceRest (g : Grammar) (m : Modifiers) : Parser TypeDeclaration := do
  keyword "interface"
  let name ← word
  let _ ← when "<" (typeParameters g)
  typesAfter g "extends"
  typesAfter g "permits"
  let members ← plainBody g .interfaceBody
  return { kind := .interfaceType, name, modifiers := m, members }

def enumRest (g : Grammar) (m : Modifiers) : Parser TypeDeclaration := do
  keyword "enum"
  let name ← word
  typesAfter g "implements"
  let members ← enumBody g
  return { kind := .enumType, name, modifiers := m, members }

def recordRest (g : Grammar) (m : Modifiers) : Parser TypeDeclaration := do
  keyword "record"
  let name ← word
  let _ ← when "<" (typeParameters g)
  let components ← parameters g
  typesAfter g "implements"
  let members ← classBody g
  return { kind := .recordType, name, modifiers := m, components, members }

def annotationTypeRest (g : Grammar) (m : Modifiers) : Parser TypeDeclaration := do
  symbol "@interface"
  let name ← word
  let members ← plainBody g .annotationBody
  return { kind := .annotationType, name, modifiers := m, members }

/-- A type declaration other than a record, behind its modifiers. -/
def typeRest (g : Grammar) (m : Modifiers) : Parser TypeDeclaration := do
  if ← nextIsWord "class" then classRest g m
  else if ← nextIsWord "interface" then interfaceRest g m
  else if ← nextIsWord "enum" then enumRest g m
  else annotationTypeRest g m

/-! ## Members -/

/-- A field or a method, from its type on. An underscore is the name of a field. -/
def typedMember (g : Grammar) (kind : BodyKind) (m : Modifiers) : Parser (List Member) := do
  let type ← plainType g
  match ← ahead with
  | name :: next :: _ =>
    if name.isWord && next.isSymbol "(" && !name.isWordOf "_" then
      let _ ← word
      match kind with
      | .annotationBody =>
        symbol "("
        symbol ")"
        let _ ← many (dimension g)
        let _ ← whenWord "default" (do keyword "default"; g.elementValue)
        symbol ";"
      | _ => methodRest g m
      return [.other]
    else
      variablesRest g
      match kind with
      | .classBody => return [.field m type]
      | _ => return [.other]
  | _ => fail

def genericMember (g : Grammar) (kind : BodyKind) (m : Modifiers) : Parser (List Member) := do
  typeParameters g
  match kind, ← ahead with
  | .classBody, first :: second :: _ =>
    if first.isWord && second.isSymbol "(" && !primitiveWords.contains first.text then
      return [.constructor (← constructorRest g)]
    else
      let _ ← annotations g
      let _ ← plainType g
      let _ ← word
      methodRest g m
      return [.other]
  | .interfaceBody, _ =>
    let _ ← annotations g
    let _ ← plainType g
    let _ ← word
    methodRest g m
    return [.other]
  | _, _ => fail

def memberRest (g : Grammar) (kind : BodyKind) (m : Modifiers) : Parser (List Member) := do
  let ts ← ahead
  if startsType ts then
    let _ ← typeRest g m
    return [.other]
  else if ts.head?.any (·.isWordOf "record") && kind != .annotationBody then
    let _ ← recordRest g m
    return [.other]
  else if ts.head?.any (·.isSymbol "<") then genericMember g kind m
  else
    match kind, ts with
    | .classBody, first :: second :: _ =>
      if first.isWord && !primitiveWords.contains first.text && second.isSymbol "(" then
        return [.constructor (← constructorRest g)]
      else if first.isWord && !primitiveWords.contains first.text && second.isSymbol "\x7b" then
        let _ ← word
        block g
        return [.other]
      else typedMember g kind m
    | _, _ => typedMember g kind m

/-- Whether a block that belongs to the class itself is next. -/
def startsStaticBlock : List Token → Bool
  | first :: second :: _ => first.isWordOf "static" && second.isSymbol "\x7b"
  | _ => false

def memberRule (g : Grammar) (kind : BodyKind) : Parser (List Member) := do
  let ts ← ahead
  if ts.head?.any (·.isSymbol ";") then
    symbol ";"
    return []
  else if kind = .classBody && ts.head?.any (·.isSymbol "\x7b") then
    block g
    return [.other]
  else if kind = .classBody && startsStaticBlock ts then
    keyword "static"
    block g
    return [.other]
  else
    let m ← modifiers g
    memberRest g kind m

end ChangeImpact.Java.Grammar
