import ChangeImpact.Java.Token

/-!
# Parsers over tokens

A parser takes tokens from the front of a list. It answers with a value and the
tokens that it left, or with nothing, in which case another parser may be tried
at the same place.

Two things are noted on the way. `Reply.reach` is the most tokens that were taken,
also on ways that led nowhere: if a text is not well formed, this tells how far it
was. `Success.tests` says whether a test method was declared in what
was read: a parser notes it where the method ends, and whoever reads on keeps it.

## Main definitions

* `Reply`, `Parser`, `Parser.run`: the answer of a parser, a parser, and the part of
  its answer that matters when it succeeds.
* `Parser.many`, `Parser.upTo`, `Parser.separated`: repetition.
* `Parser.withText`: what was read, as it stood in the source.
-/

namespace ChangeImpact.Java

/-- A value that was read, and what follows it. -/
structure Success (α : Type) where
  value : α
  /-- A test method is declared in what was read. -/
  tests : Bool
  /-- How many tokens were taken. -/
  taken : Nat
  rest : List Token

structure Reply (α : Type) where
  success? : Option (Success α)
  /-- The most tokens that were taken on any way. -/
  reach : Nat

/-- The answer of a parser that read on behind a value; before it, so many tokens had been
reached. -/
def Success.andThen {α β : Type} (s : Success α) (reach : Nat) (later : Reply β) : Reply β where
  success? := later.success?.map fun s' =>
    ⟨s'.value, s.tests || s'.tests, s.taken + s'.taken, s'.rest⟩
  reach := max reach (s.taken + later.reach)

def Parser (α : Type) : Type := List Token → Reply α

namespace Parser

variable {α β : Type}

def run (p : Parser α) (ts : List Token) : Option (Success α) := (p ts).success?

/-! ## Sequence and choice -/

protected def pure (a : α) : Parser α := fun ts => ⟨some ⟨a, false, 0, ts⟩, 0⟩

def fail : Parser α := fun _ => ⟨none, 0⟩

protected def bind (p : Parser α) (f : α → Parser β) : Parser β := fun ts =>
  match p ts with
  | ⟨none, reach⟩ => ⟨none, reach⟩
  | ⟨some s, reach⟩ => s.andThen reach (f s.value s.rest)

instance : Monad Parser where
  pure := Parser.pure
  bind := Parser.bind

def orElse (p : Parser α) (q : Unit → Parser α) : Parser α := fun ts =>
  match p ts with
  | ⟨some s, reach⟩ => ⟨some s, reach⟩
  | ⟨none, reach⟩ =>
    let second := q () ts
    ⟨second.success?, max reach second.reach⟩

instance : OrElse (Parser α) := ⟨orElse⟩

theorem run_bind (p : Parser α) (f : α → Parser β) (ts : List Token) :
    run (p >>= f) ts = (run p ts).bind fun s =>
      (run (f s.value) s.rest).map fun s' =>
        ⟨s'.value, s.tests || s'.tests, s.taken + s'.taken, s'.rest⟩ := by
  simp only [run, bind, Parser.bind]
  cases hp : p ts with
  | mk success? reach => cases success? <;> simp [Success.andThen]

theorem run_orElse (p : Parser α) (q : Unit → Parser α) (ts : List Token) :
    run (orElse p q) ts = (run p ts).or (run (q ()) ts) := by
  simp only [run, orElse]
  cases hp : p ts with
  | mk success? reach => cases success? <;> rfl

/-! ## Single tokens -/

/-- The tokens ahead; none is taken. -/
def ahead : Parser (List Token) := fun ts => ⟨some ⟨ts, false, 0, ts⟩, 0⟩

def satisfy (test : Token → Bool) : Parser Token := fun ts =>
  match ts with
  | [] => ⟨none, 0⟩
  | t :: rest => if test t then ⟨some ⟨t, false, 1, rest⟩, 1⟩ else ⟨none, 0⟩

def symbol (text : String) : Parser Unit := do
  let _ ← satisfy (·.isSymbol text)

def keyword (text : String) : Parser Unit := do
  let _ ← satisfy (·.isWordOf text)

/-- Take a word, except for some that have another meaning here. -/
def wordExcept (taken : List String) : Parser String := do
  let t ← satisfy fun t => t.isWord && !taken.contains t.text
  return t.text

def word : Parser String := wordExcept []

def nextIs (test : Token → Bool) : Parser Bool := do
  return (← ahead).head?.any test

def nextIsSymbol (text : String) : Parser Bool := nextIs (·.isSymbol text)

def nextIsWord (text : String) : Parser Bool := nextIs (·.isWordOf text)

/-- Note that a test method was declared, if it was. -/
def note (tests : Bool) : Parser Unit := fun ts => ⟨some ⟨(), tests, 0, ts⟩, 0⟩

/-! ## Repetition -/

def optional (p : Parser α) : Parser (Option α) :=
  orElse (do return some (← p)) fun _ => pure none

/-- Read something that begins with a given separator or operator, if that is next. -/
def when (text : String) (p : Parser α) : Parser (Option α) := do
  if ← nextIsSymbol text then return some (← p) else return none

def whenWord (text : String) (p : Parser α) : Parser (Option α) := do
  if ← nextIsWord text then return some (← p) else return none

def consReply (s : Success α) (reach : Nat) (later : Reply (List α)) : Reply (List α) :=
  let all := s.andThen reach later
  ⟨all.success?.map fun s' => { s' with value := s.value :: s'.value }, all.reach⟩

def many (p : Parser α) : Parser (List α) := fun ts =>
  match p ts with
  | ⟨none, reach⟩ => ⟨some ⟨[], false, 0, ts⟩, reach⟩
  | ⟨some s, reach⟩ =>
    if _shorter : s.rest.length < ts.length then consReply s reach (many p s.rest)
    else ⟨some ⟨[], false, 0, ts⟩, reach⟩
termination_by ts => ts.length
decreasing_by exact _shorter

/-- Read again and again until a given separator, and take that as well. -/
def upTo (close : String) (p : Parser α) : Parser (List α) := fun ts =>
  match ts with
  | [] => ⟨none, 0⟩
  | t :: rest =>
    if t.isSymbol close then ⟨some ⟨[], false, 1, rest⟩, 1⟩
    else
      match p (t :: rest) with
      | ⟨none, reach⟩ => ⟨none, reach⟩
      | ⟨some s, reach⟩ =>
        if _shorter : s.rest.length < (t :: rest).length then
          consReply s reach (upTo close p s.rest)
        else ⟨none, reach⟩
termination_by ts => ts.length
decreasing_by exact _shorter

def toEnd (p : Parser α) : Parser (List α) := fun ts =>
  if ts.isEmpty then ⟨some ⟨[], false, 0, []⟩, 0⟩
  else
    match p ts with
    | ⟨none, reach⟩ => ⟨none, reach⟩
    | ⟨some s, reach⟩ =>
      if _shorter : s.rest.length < ts.length then consReply s reach (toEnd p s.rest)
      else ⟨none, reach⟩
termination_by ts => ts.length
decreasing_by exact _shorter

def separated (separator : String) (p : Parser α) : Parser (List α) := do
  let first ← p
  let more ← many (do symbol separator; p)
  return first :: more

def listed (opening closing : String) (p : Parser α) : Parser (List α) := do
  symbol opening
  if ← nextIsSymbol closing then
    symbol closing
    return []
  else
    let items ← separated "," p
    symbol closing
    return items

/-- Items between braces with commas between them, and perhaps one more comma. -/
def braced (p : Parser α) : Parser Unit := do
  symbol "\x7b"
  if !(← nextIsSymbol "\x7d") && !(← nextIsSymbol ",") then
    let _ ← separated "," p
  let _ ← when "," (symbol ",")
  symbol "\x7d"

/-- Read something and give it with its text as it stood in the source. -/
def withText (p : Parser α) : Parser (α × String) := fun ts =>
  let reply := p ts
  ⟨reply.success?.map fun s => { s with value := (s.value, Token.textOf (ts.take s.taken)) },
    reply.reach⟩

end Parser

end ChangeImpact.Java
