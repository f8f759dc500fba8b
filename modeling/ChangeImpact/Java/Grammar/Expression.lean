import ChangeImpact.Java.Grammar.Type

/-!
# Expressions

Of an expression only two things matter: that it is well formed, and that test
methods declared inside are noted. So operators are read from left to right
without regard to precedence, which decides how an expression is grouped but not
whether it is one.
-/

namespace ChangeImpact.Java.Grammar

open ChangeImpact.Java.Parser

/-- Words that are no types where an expression may stand. -/
def noTypeWords : List String :=
  ["true", "false", "null", "this", "super", "new", "switch"] ++ reservedWords

def nextIsIn (words : List String) : Parser Bool :=
  nextIs fun t => t.isWord && words.contains t.text

/-- A type where an expression may stand. The word `class` behind a dot is no part of it, for
there it belongs to the class object of the type. -/
def typeOverExpression (g : Grammar) : Parser TypeRef := do
  if ← nextIsIn noTypeWords then fail
  let _ ← annotations g
  plainTypeExcept g ["class"]

/-! ## Operators -/

def leadingOperators : List String := ["+", "-", "!", "~", "++", "--"]

/-- Operators between expressions, without those that begin with `>`. -/
def binaryOperators : List String :=
  ["<", "<=", "==", "!=", "&&", "||", "+", "-", "*", "/", "&", "|", "^", "%", "<<"]

/-- Assignments, without those that begin with `>`. -/
def assignmentOperators : List String :=
  ["=", "+=", "-=", "*=", "/=", "&=", "|=", "^=", "%=", "<<="]

/-- How many `>` in a row the tokens begin with, three at most. -/
def closingAngles : List Token → Nat
  | a :: b :: c :: _ =>
    if !a.isSymbol ">" then 0
    else if !(b.isSymbol ">" && b.adjacent) then 1
    else if !(c.isSymbol ">" && c.adjacent) then 2
    else 3
  | a :: b :: _ =>
    if !a.isSymbol ">" then 0
    else if !(b.isSymbol ">" && b.adjacent) then 1
    else 2
  | a :: _ => if a.isSymbol ">" then 1 else 0
  | [] => 0

/-- Whether an equals sign joins the operator that ends just before. -/
def equalsJoined (ts : List Token) : Bool :=
  ts.head?.any fun t => t.isSymbol "=" && t.adjacent

def takeTokens : Nat → Parser Unit
  | 0 => pure ()
  | n + 1 => do
    let _ ← satisfy fun _ => true
    takeTokens n

def binaryOperator : Parser Unit := do
  let ts ← ahead
  let angles := closingAngles ts
  if angles = 0 then
    let _ ← satisfy fun t => t.kind == .symbol && binaryOperators.contains t.text
  else if equalsJoined (ts.drop angles) then
    if angles = 1 then takeTokens 2 else fail
  else takeTokens angles

def assignmentOperator : Parser Unit := do
  let ts ← ahead
  let angles := closingAngles ts
  if angles = 0 then
    let _ ← satisfy fun t => t.kind == .symbol && assignmentOperators.contains t.text
  else if 2 ≤ angles && equalsJoined (ts.drop angles) then takeTokens (angles + 1)
  else fail

/-! ## Parts -/

def arguments (g : Grammar) : Parser Unit := do
  let _ ← listed "(" ")" (g.expression .lambda)

def parenthesized (g : Grammar) : Parser Unit := do
  symbol "("
  g.expression .lambda
  symbol ")"

def block (g : Grammar) : Parser Unit := do
  symbol "\x7b"
  let _ ← upTo "\x7d" g.statement

def classBody (g : Grammar) : Parser (List Member) := do
  symbol "\x7b"
  let members ← upTo "\x7d" (g.member .classBody)
  return members.flatten

/-- The value of a variable or an array element: an expression or an array. -/
def arrayInitializer (g : Grammar) : Parser Unit := braced g.initializer

/-! ## Variables and parameters -/

/-- The name of a variable, perhaps with array dimensions. -/
def variableName (g : Grammar) (taken : List String) : Parser Unit := do
  let _ ← wordExcept taken
  let _ ← many (dimension g)

def variableDeclarator (g : Grammar) : Parser Unit := do
  variableName g []
  let _ ← when "=" (do symbol "="; g.initializer)

/-- A parameter that stands for the object a method is called on. -/
def receiverParameter (g : Grammar) : Parser Unit := do
  let _ ← annotations g
  if ← nextIsIn modifierWords then fail
  let _ ← plainType g
  let _ ← optional (do
    let _ ← wordExcept ("this" :: "_" :: reservedWords)
    symbol "."
    many (do let _ ← word; symbol "."))
  keyword "this"

/-- A parameter: its type. The first one is not named `this`, unless a keyword stands in front of
it. -/
def parameter (g : Grammar) (first : Bool) : Parser TypeRef := do
  let m ← innerModifiers g
  let type ← plainType g
  if ← nextIsSymbol "..." then
    symbol "..."
    let _ ← annotations g
    variableDeclarator g
  else variableName g (if first && m.keywords.isEmpty then ["this"] else [])
  return type

/-- Parameters with commas between them, up to the closing parenthesis: their types. -/
def parametersRest (g : Grammar) (first : Bool) : Parser (List TypeRef) := do
  if ← nextIsSymbol ")" then
    symbol ")"
    return []
  else
    let type ← parameter g first
    let more ← many (do symbol ","; parameter g false)
    symbol ")"
    return type :: more

def parameters (g : Grammar) : Parser (List TypeRef) := do
  symbol "("
  match ← optional (receiverParameter g) with
  | none => parametersRest g true
  | some _ =>
    if ← nextIsSymbol ")" then
      symbol ")"
      return []
    else
      symbol ","
      parametersRest g false

/-! ## Lambda expressions -/

/-- Parameters of a lambda expression in parentheses, with or without types. -/
def lambdaParameters (g : Grammar) : Parser Unit := do
  let first := (← ahead).drop 1 |>.head?
  let firstIn := fun (words : List String) => first.any fun t => t.isWord && words.contains t.text
  let typed := do
    if firstIn noTypeWords && !firstIn modifierWords then fail
    let _ ← parameters g
    symbol "->"
  let untyped := do
    if firstIn expressionWords || firstIn modifierOnlyWords then fail
    let _ ← listed "(" ")" word
    symbol "->"
  orElse typed fun _ => untyped

/-! ## Object and array creation -/

/-- What follows the type of a new array. -/
def arrayCreation (g : Grammar) : Parser Unit :=
  orElse
    (do
      dimension g
      let _ ← many (dimension g)
      arrayInitializer g)
    fun _ => do
      let sized := do
        let _ ← annotations g
        symbol "["
        g.expression .lambda
        symbol "]"
      sized
      let _ ← many sized
      let _ ← many (dimension g)

/-- The creation of an object or, unless it belongs to another object, of an array. -/
def creation (g : Grammar) (inner : Bool) : Parser Unit := do
  keyword "new"
  let _ ← annotations g
  let withArguments ← when "<" (typeArguments g)
  let _ ← annotations g
  let _ ← simpleType g
  if ← nextIsSymbol "(" then
    arguments g
    let _ ← optional (classBody g)
  else if inner || withArguments.isSome then fail
  else arrayCreation g

/-! ## Switch -/

/-- A variable of a pattern: its type and its name, or an underscore. -/
def patternVariable (g : Grammar) (taken : List String) : Parser Unit := do
  let _ ← typeOverExpression g
  let _ ← wordExcept taken

def patternComponent (g : Grammar) : Parser Unit := do
  if ← nextIsWord "_" then keyword "_"
  else orElse g.recordPattern fun _ => patternVariable g []

/-- A record pattern: a record's name, which some words are not, and patterns for its
components. -/
def recordPatternExcept (g : Grammar) (taken : List String) : Parser Unit := do
  if ← nextIsIn taken then fail
  let generic := do
    if ← nextIsIn reservedWords then fail
    match ← simpleType g with
    | .generic _ _ => nextIsSymbol "("
    | _ => fail
  let _ ← orElse generic fun _ => do let _ ← word; nextIsSymbol "("
  let _ ← listed "(" ")" (patternComponent g)

/-- A record pattern where no expression may stand. -/
def recordPatternRule (g : Grammar) : Parser Unit := recordPatternExcept g primitiveWords

def switchLabel (g : Grammar) (use : ArrowUse) : Parser Unit := do
  if ← nextIsWord "default" then keyword "default"
  else
    keyword "case"
    let guarded := do
      let _ ← whenWord "when" (do keyword "when"; g.expression use)
      let ended ← nextIs fun t => t.isSymbol ":" || t.isSymbol "->"
      if ended then pure () else fail
    orElse (do recordPatternExcept g expressionWords; guarded) fun _ =>
      orElse (do patternVariable g ["when", "instanceof"]; guarded) fun _ => do
        let _ ← separated "," (g.expression use)
        guarded

/-- Whether a label is next. The word `default` may also be a modifier. -/
def startsLabel : List Token → Bool
  | first :: second :: _ =>
    first.isWordOf "case" ||
      (first.isWordOf "default" && (second.isSymbol ":" || second.isSymbol "->"))
  | _ => false

def labelledStatement (g : Grammar) : Parser Unit := do
  if startsLabel (← ahead) then fail else g.statement

/-- An expression, the throwing of an exception or a block behind an arrow. -/
def ruleBody (g : Grammar) : Parser Unit := do
  if ← nextIsSymbol "\x7b" then block g
  else
    let _ ← whenWord "throw" (keyword "throw")
    g.expression .lambda
    symbol ";"

/-- A case with an arrow. An arrow in its label is taken for the end of the label, or else for
the arrow of a lambda expression. -/
def switchRule (g : Grammar) : Parser Unit :=
  let rule := fun use => do
    switchLabel g use
    symbol "->"
    ruleBody g
  let ended := do
    let ts ← ahead
    if startsLabel ts || ts.head?.any (·.isSymbol "\x7d") then pure () else fail
  orElse (do rule .label; ended) fun _ => rule .lambda

def colonLabel (g : Grammar) : Parser Unit :=
  orElse (do switchLabel g .label; symbol ":") fun _ => do
    switchLabel g .lambda
    symbol ":"

/-- The cases of a `switch`: all with arrows, or all with colons and statements. -/
def switchBlock (g : Grammar) : Parser Unit := do
  symbol "\x7b"
  let group := do
    colonLabel g
    let _ ← many (colonLabel g)
    many (labelledStatement g)
  if ← nextIsSymbol "\x7d" then symbol "\x7d"
  else
    orElse
      (do
        switchRule g
        let _ ← upTo "\x7d" (switchRule g))
      fun _ => do
        let _ ← upTo "\x7d" group

def switchForm (g : Grammar) : Parser Unit := do
  keyword "switch"
  parenthesized g
  switchBlock g

/-! ## Primary expressions -/

/-- Whether a value may be assigned to a primary expression. -/
inductive Target where
  | variable
  | field
  | element
  /-- Nothing can be assigned to it. -/
  | value
deriving DecidableEq, Inhabited

def referenceEnd (g : Grammar) : Parser Unit := do
  symbol "::"
  let _ ← when "<" (typeArguments g)
  let _ ← word

/-- A type as the start of an expression: the class object of a type, or a reference to a
method of a type. A type that is written like a variable or a field is left to be read as one. -/
def typeForm (g : Grammar) : Parser Unit := do
  let start ← ahead
  let type ← typeOverExpression g
  let rest ← ahead
  let read := start.take (start.length - rest.length)
  let primitive := match type with
    | .primitive _ => true
    | _ => false
  if !primitive && read.all fun t => t.isWord || t.isSymbol "." then fail
  else if ← nextIsSymbol "." then
    if start.head?.any (·.isWord) then
      symbol "."
      keyword "class"
    else fail
  else referenceEnd g

def template (g : Grammar) : Parser Unit := do
  let _ ← satisfy (·.kind == .templateHead)
  g.expression .lambda
  let _ ← many (do
    let _ ← satisfy (·.kind == .templateMiddle)
    g.expression .lambda)
  let _ ← satisfy (·.kind == .templateTail)

def stringLiteral (g : Grammar) : Parser Unit :=
  orElse (do let _ ← satisfy (·.kind == .string)) fun _ => template g

/-- A member of the superclass, behind `super` and a dot. -/
def superMember (g : Grammar) : Parser Target := do
  if ← nextIsWord "this" then
    keyword "this"
    return .field
  else
    let withArguments ← when "<" (typeArguments g)
    let _ ← wordExcept ["super"]
    if ← nextIsSymbol "(" then
      arguments g
      return .value
    else if withArguments.isSome then fail
    else return .field

def superForm (g : Grammar) : Parser Target := do
  if ← nextIsSymbol "::" then
    referenceEnd g
    return .value
  else
    symbol "."
    let _ ← optional (do keyword "super"; symbol ".")
    superMember g

def primaryHead (g : Grammar) : Parser Target := do
  match ← ahead with
  | [] => fail
  | t :: rest =>
    match t.kind with
    | .number | .character =>
      let _ ← satisfy fun _ => true
      return .value
    | .string | .templateHead =>
      stringLiteral g
      return .value
    | .symbol =>
      if t.isSymbol "(" then
        if rest.head?.any fun t => t.isWord && modifierOnlyWords.contains t.text then fail
        parenthesized g
        return .value
      else
        typeForm g
        return .value
    | .word =>
      if t.text = "this" || t.text = "true" || t.text = "false" || t.text = "null" then
        let _ ← word
        return .value
      else if t.text = "super" then
        keyword "super"
        superForm g
      else if t.text = "new" then
        creation g false
        return .value
      else if t.text = "switch" then fail
      else if primitiveWords.contains t.text then
        typeForm g
        return .value
      else if rest.head?.any (·.isSymbol "(") then
        let _ ← word
        arguments g
        return .value
      else
        orElse (do typeForm g; return .value) fun _ => do
          let _ ← word
          return .variable
    | _ => fail

def primarySuffix (g : Grammar) : Parser Target := do
  match ← ahead with
  | first :: second :: _ =>
    if first.isSymbol "[" then
      symbol "["
      g.expression .lambda
      symbol "]"
      return .element
    else if first.isSymbol "::" then
      referenceEnd g
      return .value
    else if first.isSymbol "." then
      symbol "."
      if second.isWordOf "new" then
        creation g true
        return .value
      else if second.isWordOf "super" then
        keyword "super"
        symbol "."
        superMember g
      else if second.isWordOf "this" then
        keyword "this"
        return .field
      else if second.kind == .string || second.kind == .templateHead then
        stringLiteral g
        return .value
      else if second.isSymbol "<" then
        let _ ← typeArguments g
        let _ ← wordExcept ["super"]
        arguments g
        return .value
      else
        let _ ← word
        if ← nextIsSymbol "(" then
          arguments g
          return .value
        else return .field
    else fail
  | _ => fail

/-- A primary expression, and whether a value may be assigned to it. -/
def primary (g : Grammar) : Parser Target := do
  let first ← primaryHead g
  let more ← many (primarySuffix g)
  return more.getLast?.getD first

/-! ## Whole expressions -/

def trailingOperator (g : Grammar) (use : ArrowUse) : Parser Unit := do
  if ← nextIsWord "instanceof" then
    keyword "instanceof"
    let _ ← whenWord "final" (keyword "final")
    let taken := match use with
      | .lambda => ["instanceof"]
      | .label => ["instanceof", "when"]
    orElse (recordPatternRule g) fun _ => do
      if ← nextIsIn reservedWords then fail
      let _ ← typeRef g
      let _ ← optional (wordExcept taken)
  else
    let _ ← satisfy fun t => t.isSymbol "++" || t.isSymbol "--"

/-- What may follow the first operand of an expression. -/
def expressionTail (g : Grammar) (use : ArrowUse) : Parser Unit := do
  let _ ← many (trailingOperator g use)
  if ← nextIsSymbol "?" then
    symbol "?"
    g.expression .lambda
    symbol ":"
    g.expression use
  else
    match ← optional binaryOperator with
    | some _ => g.expression use
    | none => pure ()

def lambdaBody (g : Grammar) (use : ArrowUse) : Parser Unit := do
  if ← nextIsSymbol "\x7b" then
    block g
    expressionTail g use
  else g.expression use

/-- A primary expression with what follows it. -/
def operation (g : Grammar) (use : ArrowUse) : Parser Unit := do
  let target ← primary g
  let assigned ← if target = .value then pure none else optional assignmentOperator
  match assigned with
  | some _ => g.expression use
  | none => expressionTail g use

/-- Whether what follows a type in parentheses is no operand, because it follows an expression
in parentheses. -/
def stopsCast (use : ArrowUse) (ts : List Token) : Bool :=
  let operand := match ts with
    | first :: second :: rest =>
      if first.isSymbol "++" || first.isSymbol "--" then second :: rest else ts
    | _ => ts
  operand.head?.any fun t =>
    t.isWordOf "instanceof" || (use == .label && t.isWordOf "when")

def cast (g : Grammar) (use : ArrowUse) : Parser Unit := do
  symbol "("
  if ← nextIsIn noTypeWords then fail
  let _ ← annotations g
  if ← nextIsIn modifierWords then fail
  let _ ← plainTypeExcept g ["class"]
  let more ← many (do symbol "&"; typeRef g)
  symbol ")"
  if stopsCast use (← ahead) then fail
  else if more.isEmpty then g.expression use
  else
    match ← ahead with
    | first :: second :: _ =>
      if first.isWord && !expressionWords.contains first.text && second.isSymbol "->" then
        let _ ← word
        symbol "->"
        lambdaBody g use
      else
        orElse (do lambdaParameters g; lambdaBody g use) fun _ => operation g use
    | _ => fail

def expressionRule (g : Grammar) (use : ArrowUse) : Parser Unit := do
  match ← ahead with
  | [] => fail
  | t :: rest =>
    if t.kind == .symbol && leadingOperators.contains t.text then
      let _ ← satisfy fun _ => true
      g.expression use
    else if t.isSymbol "(" then
      let lambda := do
        if use = .lambda then
          lambdaParameters g
          lambdaBody g use
        else fail
      orElse lambda fun _ => orElse (cast g use) fun _ => operation g use
    else if t.isWordOf "switch" then
      switchForm g
      expressionTail g use
    else if use = .lambda && t.isWord && !expressionWords.contains t.text
        && rest.head?.any (·.isSymbol "->") then
      let _ ← word
      symbol "->"
      lambdaBody g use
    else operation g use

def initializerRule (g : Grammar) : Parser Unit := do
  if ← nextIsSymbol "\x7b" then arrayInitializer g else expressionRule g .lambda

def elementValueRule (g : Grammar) : Parser Unit := do
  if ← nextIsSymbol "\x7b" then braced g.elementValue
  else
    let marker := do
      let _ ← innerAnnotationRule g
      if ← nextIs fun t => t.isWord || t.isSymbol "@" then fail else pure ()
    orElse marker fun _ => expressionRule g .lambda

end ChangeImpact.Java.Grammar
