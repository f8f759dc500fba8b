import ChangeImpact.Java.Grammar.Declaration

/-!
# Statements
-/

namespace ChangeImpact.Java.Grammar

open ChangeImpact.Java.Parser

/-! ## Modules, packages and imports -/

def moduleDirective : Parser Unit := do
  let names := do
    let _ ← separated "," qualifiedName
  match ← word with
  | "requires" =>
    let _ ← many (satisfy fun t => t.isWordOf "transitive" || t.isWordOf "static")
    let _ ← qualifiedName
  | "exports" | "opens" =>
    let _ ← qualifiedName
    let _ ← whenWord "to" (do keyword "to"; names)
  | "uses" =>
    let _ ← qualifiedName
  | "provides" =>
    let _ ← qualifiedName
    keyword "with"
    names
  | _ => fail
  symbol ";"

def moduleRest : Parser Unit := do
  let _ ← whenWord "open" (keyword "open")
  keyword "module"
  let _ ← qualifiedName
  symbol "\x7b"
  let _ ← upTo "\x7d" moduleDirective

def packageRest : Parser Item := do
  keyword "package"
  let name ← qualifiedName
  symbol ";"
  return .package name

def importRule : Parser Item := do
  keyword "import"
  let isStatic ← whenWord "static" (keyword "static")
  let name ← qualifiedName
  let onDemand ← when "." (do symbol "."; symbol "*")
  symbol ";"
  return .imported isStatic.isSome onDemand.isSome name

/-! ## Declarations among statements -/

/-- A type where an expression may stand as well, with a name behind it. A type that looks like
an expression is not followed by the name `instanceof`. -/
def typeBeforeName (g : Grammar) : Parser Unit := do
  if ← nextIsIn noTypeWords then fail
  match ← plainTypeExcept g ["class"] with
  | .named _ => if ← nextIsWord "instanceof" then fail else pure ()
  | _ => pure ()

/-- A declaration or local variables, behind their modifiers. Methods are allowed at the top
of a source only. -/
def declarationRest (g : Grammar) (top : Bool) (m : Modifiers) : Parser Item := do
  let ts ← ahead
  let annotated := m.keywords.isEmpty
  if startsType ts then return .type (← typeRest g m)
  else if ts.head?.any (·.isWordOf "record") then return .type (← recordRest g m)
  else if annotated && ts.head?.any (·.isWordOf "package") then packageRest
  else if annotated && ts.head?.any fun t => t.isWordOf "module" || t.isWordOf "open" then
    moduleRest
    return .other
  else if top && ts.head?.any (·.isSymbol "<") then
    typeParameters g
    let _ ← annotations g
    let _ ← plainType g
    let _ ← word
    methodRest g m
    return .other
  else
    if m.isEmpty then typeBeforeName g
    else
      let _ ← plainType g
    match ← ahead with
    | name :: next :: _ =>
      if top && name.isWord && next.isSymbol "(" && !name.isWordOf "_" then
        let _ ← word
        methodRest g m
      else variablesRest g
      return .other
    | _ => fail

def expressionStatement (g : Grammar) : Parser Unit := do
  expressionRule g .lambda
  symbol ";"

/-- Local variables of a type that might also be the start of an expression, or a method at
the top of a source; else an expression. -/
def plainStatement (g : Grammar) (top : Bool) : Parser Item :=
  orElse (declarationRest g top {}) fun _ => do
    expressionStatement g
    return .other

/-! ## Compound statements -/

def catchClause (g : Grammar) : Parser Unit := do
  keyword "catch"
  symbol "("
  let _ ← innerModifiers g
  let _ ← separated "|" (plainType g)
  variableName g []
  symbol ")"
  block g

def finallyClause (g : Grammar) : Parser Unit := do
  keyword "finally"
  block g

/-- Something that is closed at the end of a block. -/
def resource (g : Grammar) : Parser Unit :=
  let declared := do
    let m ← innerModifiers g
    if m.isEmpty && (← nextIsIn reservedWords) then fail
    let _ ← plainTypeExcept g (if m.isEmpty then ["class"] else [])
    variableName g []
    symbol "="
    g.expression .lambda
  orElse declared fun _ => do
    let reserved ← nextIsIn reservedWords
    if ← nextIsIn modifierOnlyWords then fail
    match ← primary g with
    | .variable => if reserved then fail else pure ()
    | .field => pure ()
    | _ => fail

def tryStatement (g : Grammar) : Parser Unit := do
  keyword "try"
  let resources ← when "(" (do
    symbol "("
    let _ ← separated ";" (resource g)
    let _ ← when ";" (symbol ";")
    symbol ")")
  block g
  let caught ← many (catchClause g)
  let closed ← whenWord "finally" (finallyClause g)
  if resources.isNone && caught.isEmpty && closed.isNone then fail else pure ()

def loopVariableType (g : Grammar) : Parser Unit := do
  let m ← innerModifiers g
  if m.isEmpty then typeBeforeName g
  else
    let _ ← plainType g

def elementsHead (g : Grammar) : Parser Unit := do
  loopVariableType g
  variableName g []
  symbol ":"
  g.expression .lambda

def counterHead (g : Grammar) : Parser Unit := do
  let expressions := do
    let _ ← separated "," (g.expression .lambda)
  let declared := do
    loopVariableType g
    variablesRest g
  let start := do
    if ← nextIsSymbol ";" then symbol ";"
    else if ← nextIsIn modifierOnlyWords then fail
    else
      expressions
      symbol ";"
  orElse declared fun _ => start
  if ← nextIsSymbol ";" then symbol ";"
  else
    g.expression .lambda
    symbol ";"
  if ← nextIsSymbol ")" then pure () else expressions

def forStatement (g : Grammar) : Parser Unit := do
  keyword "for"
  symbol "("
  orElse (do elementsHead g; symbol ")") fun _ => do
    counterHead g
    symbol ")"
  g.statement

/-- A `switch` as a statement, or as the start of an expression that is one. -/
def switchStatement (g : Grammar) : Parser Unit := do
  switchForm g
  let tail := do
    expressionTail g .lambda
    symbol ";"
  if ← nextIsWord "instanceof" then tail
  else
    let _ ← optional tail

def jump (text : String) : Parser Unit := do
  keyword text
  if ← nextIsSymbol ";" then symbol ";"
  else
    let _ ← word
    symbol ";"

def ifStatement (g : Grammar) : Parser Unit := do
  keyword "if"
  parenthesized g
  g.statement
  let _ ← whenWord "else" (do keyword "else"; g.statement)

def whileStatement (g : Grammar) : Parser Unit := do
  keyword "while"
  parenthesized g
  g.statement

def doStatement (g : Grammar) : Parser Unit := do
  keyword "do"
  g.statement
  keyword "while"
  parenthesized g
  symbol ";"

def synchronizedStatement (g : Grammar) : Parser Unit := do
  keyword "synchronized"
  parenthesized g
  block g

/-! ## Simple statements -/

def returnStatement (g : Grammar) : Parser Unit := do
  keyword "return"
  if ← nextIsSymbol ";" then symbol ";"
  else
    g.expression .lambda
    symbol ";"

def valueStatement (g : Grammar) (text : String) : Parser Unit := do
  keyword text
  g.expression .lambda
  symbol ";"

def assertStatement (g : Grammar) : Parser Unit := do
  keyword "assert"
  g.expression .lambda
  let _ ← when ":" (do symbol ":"; g.expression .lambda)
  symbol ";"

def labelStatement (g : Grammar) : Parser Unit := do
  let _ ← word
  symbol ":"
  g.statement

/-! ## All statements -/

/-- Read something that declares nothing at the top of a source. -/
def nothingDeclared (p : Parser Unit) : Parser Item := do
  p
  return .other

def modifiedDeclaration (g : Grammar) (top : Bool) : Parser Item := do
  let m ← modifiers g
  declarationRest g top m

def symbolItem (g : Grammar) (top : Bool) (text : String) : Parser Item :=
  if text = ";" then nothingDeclared (symbol ";")
  else if text = "\x7b" then nothingDeclared (block g)
  else if text = "@" || text = "@interface" then
    orElse (modifiedDeclaration g top) fun _ => nothingDeclared (expressionStatement g)
  else if text = "<" && top then declarationRest g top {}
  else nothingDeclared (expressionStatement g)

/-- A statement that begins with a word that other words can decide about. -/
def wordItem (g : Grammar) (top : Bool) (t : Token) (rest : List Token) : Parser Item :=
  if modifierOnlyWords.contains t.text || startsNonSealed (t :: rest) then
    modifiedDeclaration g top
  else if modifierWords.contains t.text then
    orElse (modifiedDeclaration g top) fun _ => nothingDeclared (expressionStatement g)
  else if !expressionWords.contains t.text && !reservedWords.contains t.text
      && rest.head?.any (·.isSymbol ":") then
    nothingDeclared (labelStatement g)
  else plainStatement g top

/-- A statement that begins with a word which may also be a variable. -/
def wordOrExpression (g : Grammar) (rest : List Token) (p : Parser Item) : Parser Item :=
  let expression := nothingDeclared (expressionStatement g)
  if rest.head?.any (·.isWordOf "instanceof") then expression
  else orElse p fun _ => expression

def keywordItem (g : Grammar) (top : Bool) (t : Token) (rest : List Token) : Parser Item :=
  match t.text with
  | "import" => importRule
  | "package" => packageRest
  | "if" => nothingDeclared (ifStatement g)
  | "while" => nothingDeclared (whileStatement g)
  | "do" => nothingDeclared (doStatement g)
  | "for" => nothingDeclared (forStatement g)
  | "try" => nothingDeclared (tryStatement g)
  | "switch" => nothingDeclared (switchStatement g)
  | "break" => nothingDeclared (jump "break")
  | "continue" => nothingDeclared (jump "continue")
  | "return" => nothingDeclared (returnStatement g)
  | "throw" => nothingDeclared (valueStatement g "throw")
  | "assert" => nothingDeclared (assertStatement g)
  | "yield" => wordOrExpression g rest (nothingDeclared (valueStatement g "yield"))
  | "class" | "interface" | "enum" => declarationRest g top {}
  | "record" => wordOrExpression g rest (do return .type (← recordRest g {}))
  | "open" | "module" => wordOrExpression g rest (nothingDeclared moduleRest)
  | "synchronized" =>
    if rest.head?.any (·.isSymbol "(") then nothingDeclared (synchronizedStatement g)
    else modifiedDeclaration g top
  | _ => wordItem g top t rest

/-- A statement or, at the top of a source, also a method. -/
def item (g : Grammar) (top : Bool) : Parser Item := do
  match ← ahead with
  | [] => fail
  | t :: rest =>
    match t.kind with
    | .symbol => symbolItem g top t.text
    | .word => keywordItem g top t rest
    | _ => nothingDeclared (expressionStatement g)

def statementRule (g : Grammar) : Parser Unit := do
  let _ ← item g false

end ChangeImpact.Java.Grammar
