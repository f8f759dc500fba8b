import ChangeImpact.Java.Token

/-!
# Reading tokens

The longest token that fits is taken at every place. Reading never fails: a
character that begins no token becomes a stray token, which no grammar rule takes.

## Main definitions

* `Lexer.layout`: the blanks and comments at the start of a text.
* `Lexer.next?`: the first token of a text.
* `Lexer.tokens`: all tokens of a text.
-/

namespace ChangeImpact.Java.Lexer

/-! ## Layout -/

/-- Space and the control characters from tab to carriage return. -/
def isBlank (c : Char) : Bool := c == ' ' || (9 ≤ c.toNat && c.toNat ≤ 13)

/-- What follows the first `*/`, if there is one. -/
def afterComment? : List Char → Option (List Char)
  | [] => none
  | '*' :: '/' :: rest => some rest
  | c :: rest => if c.toNat = 0 then none else afterComment? rest

theorem length_afterComment? {cs rest : List Char} (h : afterComment? cs = some rest) :
    rest.length ≤ cs.length := by
  fun_induction afterComment? cs with
  | case1 => simp at h
  | case2 r =>
    simp only [Option.some.injEq] at h
    subst h
    simp only [List.length_cons]
    omega
  | case3 => simp at h
  | case4 c r _ _ ih =>
    have := ih h
    simp only [List.length_cons]
    omega

/-- Whether a character may stand in a comment that ends with its line. -/
def inLine (c : Char) : Bool := c != '\n' && c.toNat != 0

/-- One blank or one comment at the start of a text: what follows it. A comment that is not
closed is no comment. -/
def afterLayoutItem? : List Char → Option (List Char)
  | [] => none
  | '/' :: '/' :: rest => some (rest.dropWhile inLine)
  | '/' :: '*' :: rest => afterComment? rest
  | c :: rest => if isBlank c then some rest else none

theorem length_afterLayoutItem? {cs rest : List Char} (h : afterLayoutItem? cs = some rest) :
    rest.length < cs.length := by
  fun_cases afterLayoutItem? cs with
  | case1 => simp [afterLayoutItem?] at h
  | case2 r =>
    simp only [afterLayoutItem?, Option.some.injEq] at h
    subst h
    have := (List.dropWhile_sublist inLine (l := r)).length_le
    simp only [List.length_cons]
    omega
  | case3 r =>
    simp only [afterLayoutItem?] at h
    have := length_afterComment? h
    simp only [List.length_cons]
    omega
  | case4 c r h₁ h₂ blank =>
    rw [afterLayoutItem?.eq_4 _ _ h₁ h₂] at h
    simp only [blank, if_true, Option.some.injEq] at h
    subst h
    simp
  | case5 c r h₁ h₂ blank =>
    rw [afterLayoutItem?.eq_4 _ _ h₁ h₂] at h
    simp [blank] at h

def afterLayout (cs : List Char) : List Char :=
  match _h : afterLayoutItem? cs with
  | none => cs
  | some rest => afterLayout rest
termination_by cs.length
decreasing_by exact length_afterLayoutItem? _h

/-! ## Words -/

def beginsWord (c : Char) : Bool := Text.isLetter c || c == '_' || c == '$'

def continuesWord (c : Char) : Bool := beginsWord c || Text.isMark c || c == '¢'

/-! ## Numbers -/

def isHex (c : Char) : Bool :=
  c.isDigit || ('a' ≤ c && c ≤ 'f') || ('A' ≤ c && c ≤ 'F')

def isOctal (c : Char) : Bool := '0' ≤ c && c ≤ '7'

def isBinary (c : Char) : Bool := c == '0' || c == '1'

def isExponentMark (c : Char) : Bool := c == 'e' || c == 'E'

/-- Hexadecimal numbers mark their exponent with a `p`, which whole numbers may do too. -/
def isPowerMark (c : Char) : Bool := isExponentMark c || c == 'p' || c == 'P'

def isFloatMark (c : Char) : Bool := c == 'f' || c == 'F' || c == 'd' || c == 'D'

def isLongMark (c : Char) : Bool := c == 'l' || c == 'L'

/-- The length of a run of digits with underscores between digits: any number of them in a
row, or single ones. Counted from behind a digit. -/
def moreDigits (digit : Char → Bool) (runs : Bool) : List Char → Nat
  | [] => 0
  | c :: rest =>
    let between := match (if runs then rest.dropWhile (· == '_') else rest) with
      | [] => false
      | next :: _ => digit next
    if digit c || (c == '_' && between) then 1 + moreDigits digit runs rest else 0

/-- The length of a number of at least one digit; zero if there is none. -/
def digits (digit : Char → Bool) (runs : Bool) : List Char → Nat
  | [] => 0
  | c :: rest => if digit c then 1 + moreDigits digit runs rest else 0

def mark (p : Char → Bool) : List Char → Nat
  | [] => 0
  | c :: _ => if p c then 1 else 0

/-- The length of an exponent: a mark, perhaps a sign, and digits; zero if there is none. -/
def exponent (isMark : Char → Bool) (runs : Bool) (cs : List Char) : Nat :=
  let sign := mark isMark cs
  let first := sign + mark (fun c => c == '+' || c == '-') (cs.drop sign)
  let length := digits Char.isDigit runs (cs.drop first)
  if sign = 0 || length = 0 then 0 else first + length

/-- Lengths along a text: the total, unless a part that must be there has length zero. -/
def chain (cs : List Char) (parts : List (Bool × (List Char → Nat))) : Nat :=
  let go := parts.foldl (fun (total : Option Nat) part =>
    total.bind fun n =>
      let length := part.2 (cs.drop n)
      if part.1 && length == 0 then none else some (n + length)) (some 0)
  go.getD 0

def must (f : List Char → Nat) : Bool × (List Char → Nat) := (true, f)

def may (f : List Char → Nat) : Bool × (List Char → Nat) := (false, f)

/-- The start of a number to another base: a zero and the base's letter. -/
def base (letter : Char) : List Char → Nat
  | '0' :: c :: _ => if c.toLower == letter then 2 else 0
  | _ => 0

def numberForms : List (List (Bool × (List Char → Nat))) :=
  let decimal := digits Char.isDigit true
  let grouped := digits Char.isDigit false
  let hex := digits isHex false
  let point := mark (· == '.')
  let float := mark isFloatMark
  let power := exponent isPowerMark true
  [[must decimal, may (mark isLongMark)],
   [must (base 'x'), must hex, may (mark isLongMark)],
   [must (base 'o'), must (digits isOctal false), may (mark isLongMark)],
   [must (base 'b'), must (digits isBinary false), may (mark isLongMark)],
   [must grouped, must point, may grouped, may (exponent isExponentMark false), may float],
   [must point, must grouped, may (exponent isExponentMark false), may float],
   [must decimal, must (exponent isPowerMark false), may float],
   [must decimal, may (exponent isExponentMark false), must float],
   [must (base 'x'), must hex, may point],
   [must (base 'x'), must hex, may point, must power, may float],
   [must (base 'x'), may hex, must point, must hex],
   [must (base 'x'), may hex, must point, must hex, must power, may float]]

def numberLength (cs : List Char) : Nat :=
  (numberForms.map (chain cs)).foldl max 0

/-! ## Characters and strings -/

/-- The length of what stands between single quotes, the closing one included. -/
def characterLength? : List Char → Option Nat
  | [] => none
  | '\'' :: _ => some 1
  | '\\' :: c :: rest => if c.toNat = 0 then none else (characterLength? rest).map (· + 2)
  | c :: rest =>
    if c == '\n' || c == '\\' || c.toNat = 0 then none else (characterLength? rest).map (· + 1)

inductive StringEnd where
  | closed
  /-- At an embedded expression. -/
  | expression
deriving DecidableEq

def completeEscape (c : Char) (rest : List Char) : Bool :=
  if c == 'x' then (rest.take 2).length == 2 && (rest.take 2).all isHex
  else if c == 'u' then
    ((rest.take 4).length == 4 && (rest.take 4).all isHex) ||
    match rest with
    | '\x7b' :: more =>
      let number := more.takeWhile isHex
      number != [] && (more.drop number.length).head? == some '\x7d'
    | _ => false
  else true

/-- The length of a stretch of a string up to its closing quote or up to an embedded
expression, and which of the two ends it. -/
def stringLength? : List Char → Option (StringEnd × Nat)
  | [] => none
  | '"' :: _ => some (.closed, 1)
  | '\\' :: '\x7b' :: _ => some (.expression, 2)
  | '\\' :: c :: rest =>
    if c.toNat ≠ 0 && completeEscape c rest then
      (stringLength? rest).map fun (e, n) => (e, n + 2)
    else none
  | c :: rest =>
    if c == '\\' || c.toNat = 0 then none else (stringLength? rest).map fun (e, n) => (e, n + 1)

/-- The same for a text block, which three quotes close. -/
def blockLength? : List Char → Option (StringEnd × Nat)
  | [] => none
  | '"' :: '"' :: '"' :: _ => some (.closed, 3)
  | '\\' :: '\x7b' :: _ => some (.expression, 2)
  | '\\' :: c :: rest =>
    if c.toNat ≠ 0 then (blockLength? rest).map fun (e, n) => (e, n + 2) else none
  | c :: rest =>
    if c == '\\' || c.toNat = 0 then none else (blockLength? rest).map fun (e, n) => (e, n + 1)

/-! ## Tokens -/

/-- Separators and operators, each before those that it begins with. -/
def symbols : List String :=
  ["@interface", "...", "->", "::", "++", "--", "&&", "||", "==", "!=", "<<=", "<<", "<=", "+=",
   "-=", "*=", "/=", "&=", "|=", "^=", "%=", "(", ")", "\x7b", "\x7d", "[", "]", ";", ",", ".",
   "@", "=", ">", "<", "!", "~", "?", ":", "+", "-", "*", "/", "&", "|", "^", "%"]

/-- A string that holds the expression being read: how many braces the expression has open,
and whether the string is a text block. -/
structure Embedding where
  braces : Nat
  block : Bool

/-- What is read at the start of a text: a kind of token, the number of its characters, and
the strings that hold what follows. -/
structure Lexed where
  kind : Token.Kind
  length : Nat
  within : List Embedding

/-- A stretch of string as a token. `opened` characters stand before it, and `inside` says
whether those close an embedded expression. -/
def stringToken (opened : Nat) (inside block : Bool) (within : List Embedding)
    (body : Option (StringEnd × Nat)) : Option Lexed :=
  body.map fun (ending, length) =>
    match ending, inside with
    | .closed, false => ⟨.string, opened + length, within⟩
    | .closed, true => ⟨.templateTail, opened + length, within⟩
    | .expression, false => ⟨.templateHead, opened + length, ⟨0, block⟩ :: within⟩
    | .expression, true => ⟨.templateMiddle, opened + length, ⟨0, block⟩ :: within⟩

def symbolToken? (within : List Embedding) (cs : List Char) : Option Lexed :=
  (symbols.find? fun s => s.toList.isPrefixOf cs).map fun s =>
    let within := match within with
      | [] => []
      | e :: outer =>
        if s == "\x7b" then { e with braces := e.braces + 1 } :: outer
        else if s == "\x7d" then { e with braces := e.braces - 1 } :: outer
        else e :: outer
    ⟨.symbol, s.toList.length, within⟩

/-- The token at the start of a text that begins with no layout. -/
def lexeme? (within : List Embedding) : List Char → Option Lexed
  | [] => none
  | c :: rest =>
    let number := numberLength (c :: rest)
    if beginsWord c then some ⟨.word, 1 + (rest.takeWhile continuesWord).length, within⟩
    else if number ≠ 0 then some ⟨.number, number, within⟩
    else if c == '\'' then
      (characterLength? rest).bind fun n =>
        if n = 1 then none else some ⟨.character, 1 + n, within⟩
    else if c == '"' then
      match rest with
      | '"' :: '"' :: body => stringToken 3 false true within (blockLength? body)
      | body => stringToken 1 false false within (stringLength? body)
    else
      match within with
      | ⟨0, block⟩ :: outer =>
        if c == '\x7d' then
          stringToken 1 true block outer (if block then blockLength? rest else stringLength? rest)
        else symbolToken? within (c :: rest)
      | _ => symbolToken? within (c :: rest)

def tokensWithin (within : List Embedding) (cs : List Char) : List Token :=
  let body := afterLayout cs
  if body.isEmpty then []
  else
    let layout := cs.take (cs.length - body.length)
    let found := (lexeme? within body).getD ⟨.stray, 1, within⟩
    let rest := body.drop found.length
    if _h : rest.length < cs.length then
      { layout, kind := found.kind, text := String.ofList (body.take found.length) }
        :: tokensWithin found.within rest
    else []
termination_by cs.length
decreasing_by exact _h

/-- All tokens of a source text. A byte order mark at its very start is layout. -/
def tokens (cs : List Char) : List Token :=
  match cs with
  | '\uFEFF' :: rest =>
    match tokensWithin [] rest with
    | [] => []
    | t :: ts => { t with layout := '\uFEFF' :: t.layout } :: ts
  | cs => tokensWithin [] cs

end ChangeImpact.Java.Lexer
