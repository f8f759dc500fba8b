import ChangeImpact.Java.Grammar.Basic

/-!
# Names, annotations and types
-/

namespace ChangeImpact.Java.Grammar

open ChangeImpact.Java.Parser

/-! ## Names and annotations -/

/-- A simple or dotted name, as it stands. -/
def qualifiedName : Parser String := do
  let (_, text) ← withText do
    let _ ← word
    let _ ← many (do symbol "."; word)
  return text

/-- The arguments of an annotation: one value, or values with names. -/
def annotationArguments (g : Grammar) : Parser Unit := do
  symbol "("
  match ← ahead with
  | first :: second :: _ =>
    if first.isSymbol ")" then symbol ")"
    else if first.isWord && !expressionWords.contains first.text && second.isSymbol "=" then
      let _ ← separated "," (do let _ ← word; symbol "="; g.elementValue)
      symbol ")"
    else
      g.elementValue
      symbol ")"
  | _ => symbol ")"

def annotationRule (g : Grammar) : Parser String := do
  symbol "@"
  let name ← qualifiedName
  let _ ← when "(" (annotationArguments g)
  return name

/-- An annotation where no type can be declared: `@interface` is one there, and its name may
go on. -/
def innerAnnotationRule (g : Grammar) : Parser String := do
  if ← nextIsSymbol "@interface" then
    symbol "@interface"
    let _ ← optional (satisfy fun t => t.isWord && t.adjacent)
    let _ ← many (do symbol "."; word)
    let _ ← when "(" (annotationArguments g)
    return "interface"
  else annotationRule g

def annotations (g : Grammar) : Parser (List String) := many (innerAnnotationRule g)

/-! ## Modifiers -/

/-- Whether the tokens begin with the modifier `non-sealed`, which holds no layout. -/
def startsNonSealed : List Token → Bool
  | first :: second :: third :: _ =>
    first.isWordOf "non" && second.isSymbol "-" && second.adjacent
      && third.isWordOf "sealed" && third.adjacent
  | _ => false

/-- An annotation, which `marker` reads, or a keyword in front of a declaration. -/
def modifier (marker : Parser String) : Parser Modifiers := do
  let ts ← ahead
  if ts.head?.any fun t => t.isSymbol "@" || t.isSymbol "@interface" then
    return { annotations := [← marker] }
  else if ts.head?.any fun t => t.isWord && modifierWords.contains t.text then
    return { keywords := [← word] }
  else if startsNonSealed ts then
    keyword "non"
    symbol "-"
    keyword "sealed"
    return { keywords := ["non-sealed"] }
  else fail

def allModifiers (parts : List Modifiers) : Modifiers where
  annotations := parts.flatMap Modifiers.annotations
  keywords := parts.flatMap Modifiers.keywords

def modifiers (g : Grammar) : Parser Modifiers := do
  return allModifiers (← many (modifier (annotationRule g)))

def innerModifiers (g : Grammar) : Parser Modifiers := do
  return allModifiers (← many (modifier (innerAnnotationRule g)))

/-! ## Types -/

def typeArguments (g : Grammar) : Parser (List TypeRef) := listed "<" ">" g.typeArgument

/-- A segment of a class name with its type arguments; `start` is where the name began, and some
words are no segments. -/
def typeSegment (g : Grammar) (taken : List String) (start : List Token) : Parser TypeRef := do
  let _ ← wordExcept taken
  let rest ← ahead
  let name := Token.textOf (start.take (start.length - rest.length))
  match ← optional (typeArguments g) with
  | some arguments => return .generic name arguments
  | none => return .named name

/-- A type without array dimensions, in which some words do not follow a dot. -/
def simpleTypeExcept (g : Grammar) (taken : List String) : Parser TypeRef := do
  let start ← ahead
  if start.head?.any fun t => t.isWord && primitiveWords.contains t.text then
    return .primitive (← word)
  else
    let first ← typeSegment g [] start
    let more ← many (do
      symbol "."
      let _ ← annotations g
      typeSegment g taken start)
    return more.getLast?.getD first

def simpleType (g : Grammar) : Parser TypeRef := simpleTypeExcept g []

def dimension (g : Grammar) : Parser Unit := do
  let _ ← annotations g
  symbol "["
  symbol "]"

/-- A type without annotations in front, in which some words do not follow a dot. -/
def plainTypeExcept (g : Grammar) (taken : List String) : Parser TypeRef := do
  let element ← simpleTypeExcept g taken
  let dimensions ← many (dimension g)
  return element.arrays dimensions.length

def plainType (g : Grammar) : Parser TypeRef := plainTypeExcept g []

/-- A type, perhaps with annotations in front. -/
def typeRef (g : Grammar) : Parser TypeRef := do
  let _ ← annotations g
  plainType g

def typeArgumentRule (g : Grammar) : Parser TypeRef := do
  let _ ← annotations g
  if ← nextIsSymbol "?" then
    symbol "?"
    if ← nextIsWord "extends" then
      keyword "extends"
      return .bounded (← typeRef g)
    else if ← nextIsWord "super" then
      keyword "super"
      return .bounded (← typeRef g)
    else return .wildcard
  else plainType g

def typeList (g : Grammar) : Parser Unit := do
  let _ ← separated "," (typeRef g)

def typeParameter (g : Grammar) : Parser Unit := do
  let _ ← annotations g
  let _ ← word
  let _ ← whenWord "extends" (do keyword "extends"; separated "&" (typeRef g))

def typeParameters (g : Grammar) : Parser Unit := do
  symbol "<"
  let _ ← separated "," (typeParameter g)
  symbol ">"

end ChangeImpact.Java.Grammar
