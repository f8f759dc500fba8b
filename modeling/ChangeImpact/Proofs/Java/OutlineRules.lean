import ChangeImpact.Java.Grammar.Declaration
import ChangeImpact.Proofs.Java.Outline
import ChangeImpact.Proofs.Java.Reading
import ChangeImpact.Proofs.Java.Types

/-!
# Rules of the grammar on outlines

What the rules of the grammar take of the tokens of an outline, from names and annotations up to
members. Most of what a rule looks for is not there, so most steps say that it takes nothing.

## Main statements

* `Grammar.takes_qualifiedName`, `Grammar.takes_modifiers`, `Grammar.takes_simpleType`,
  `Grammar.takes_parameters_of`: the parts of declarations.
* `Grammar.takes_classRest`, `Grammar.takes_recordRest`, `Grammar.takes_enumBody`: types, if their
  members are taken.
* `Grammar.takes_field`, `Grammar.takes_constructor`, `Grammar.takes_method`,
  `Grammar.takes_nested`: members, if their types and parameters are taken.
-/

namespace ChangeImpact.Java

open ChangeImpact.Java.Parser ChangeImpact.Java.Outline

namespace Grammar

variable (g : Grammar)

/-! ## Names and annotations -/

/-- A dotted name is read up to where no dot and word follow. -/
theorem takes_qualifiedName (n : DottedName) {rest : List Token}
    (stops : run (do symbol "."; word) rest = none) :
    Takes qualifiedName n.tokens rest n.text false := by
  have segment (i : Identifier) (later : List Token) :
      Takes (do symbol "."; word) [.ofSymbol ".", i.token] later i.text false :=
    .symbol_bind (.wordExcept rfl later)
  have segments := Takes.many_flatMap n.rest (fun _ => True) (by simp) (by simp) trivial
    (fun i _ later _ => segment i later) (.many_nil stops)
  rw [List.append_nil] at segments
  have whole : Takes (do let _ ← word; let _ ← many (do symbol "."; word)) n.tokens rest () false :=
    .wordExcept_bind rfl (segments.bind_nil (.pure _ rest))
  unfold qualifiedName
  rw [← n.textOf_tokens]
  exact whole.withText.bind_nil (.pure _ rest)

/-- What may follow an annotation without arguments. -/
def AfterName (ts : List Token) : Prop :=
  ts.head?.any (·.isSymbol ".") = false ∧ ts.head?.any (·.isSymbol "(") = false

/-- A dot would continue the name, and a parenthesis would be read as arguments. -/
theorem takes_annotationRule (n : DottedName) {rest : List Token} (after : AfterName rest) :
    Takes (annotationRule g) (.ofSymbol "@" :: n.tokens) rest n.text false := by
  have name := takes_qualifiedName n (run_symbol_bind_eq_none after.1)
  exact .symbol_bind (name.bind_nil (.when_bind after.2 (.pure _ rest)))

/-- The modifiers of a declaration with some annotations, which may be final. -/
def declaredModifiers (annotations : List DottedName) (isFinal : Bool) : Modifiers where
  annotations := annotations.map DottedName.text
  keywords := if isFinal then ["final"] else []

/-- No modifier is next. -/
theorem run_modifier_eq_none (marker : Parser String) {text : String} {t : Token}
    (rest : List Token) (free : modifierWords.contains text = false)
    (noDash : t.isSymbol "-" = false) :
    run (modifier marker) (.ofWord text :: t :: rest) = none := by
  have noSealed : startsNonSealed (.ofWord text :: t :: rest) = false := by
    cases rest <;> simp [startsNonSealed, noDash]
  have noKeyword : (Token.isWord (.ofWord text) && modifierWords.contains text) = false := by
    rw [free, Bool.and_false]
  unfold modifier
  rw [run_ahead_bind, if_neg (by simp), if_neg (Bool.not_eq_true _ ▸ noKeyword), noSealed]
  rfl

/-- What follows must be neither one more modifier nor the beginning of `non-sealed`. -/
theorem takes_modifiers (annotations : List DottedName) (isFinal : Bool) {text : String}
    {t : Token} (rest : List Token) (free : modifierWords.contains text = false)
    (noDash : t.isSymbol "-" = false) :
    Takes (modifiers g) (annotationTokens annotations ++ if isFinal then [.ofWord "final"] else [])
      (.ofWord text :: t :: rest) (declaredModifiers annotations isFinal) false := by
  have stops := Takes.many_nil (run_modifier_eq_none (annotationRule g) rest free noDash)
  have keywords : Takes (many (modifier (annotationRule g)))
      (if isFinal then [.ofWord "final"] else []) (.ofWord text :: t :: rest)
      (if isFinal then [{ keywords := ["final"] }] else []) false := by
    cases isFinal with
    | false => exact stops
    | true =>
      have final : Takes (modifier (annotationRule g)) [.ofWord "final"]
          (.ofWord text :: t :: rest) { keywords := ["final"] } false := by
        unfold modifier
        apply Takes.ahead_bind
        exact .wordExcept_bind rfl (.pure _ _)
      exact Takes.many_cons (by simp) final stops
  have marked (n : DottedName) (later : List Token) (after : AfterName later) :
      Takes (modifier (annotationRule g)) (.ofSymbol "@" :: n.tokens) later
        { annotations := [n.text] } false := by
    unfold modifier
    apply Takes.ahead_bind
    exact (takes_annotationRule g n after).bind_nil (.pure _ later)
  have all := Takes.many_flatMap annotations AfterName (by simp) (fun _ _ => ⟨rfl, rfl⟩)
    (by cases isFinal <;> exact ⟨rfl, rfl⟩) (fun n _ => marked n) keywords
  have parts : allModifiers (annotations.map (fun n => { annotations := [n.text] })
      ++ if isFinal then [{ keywords := ["final"] }] else [])
      = declaredModifiers annotations isFinal := by
    have names : annotations.map DottedName.text = annotations.flatMap fun n => [n.text] :=
      List.map_eq_flatMap
    cases isFinal <;> simp [allModifiers, declaredModifiers, List.flatMap_map, ← names]
  rw [← parts]
  exact all.bind_nil (.pure _ _)

/-! ## Types -/

/-- A token that ends a type or the name of a variable. -/
structure EndsType (t : Token) : Prop where
  unmarked : t.beginsAnnotation = false
  dimension : t.isSymbol "[" = false
  arguments : t.isSymbol "<" = false
  dot : t.isSymbol "." = false

theorem endsType_ofWord (text : String) : EndsType (.ofWord text) := ⟨rfl, rfl, rfl, rfl⟩

theorem endsType_of_mem {text : String} (h : text ∈ [",", ")", ";", "\x7b"]) :
    EndsType (.ofSymbol text) := by
  simp only [List.mem_cons, List.not_mem_nil, or_false] at h
  rcases h with rfl | rfl | rfl | rfl <;> exact ⟨rfl, rfl, rfl, rfl⟩

theorem run_dimension_eq_none {t : Token} (ends : EndsType t) (rest : List Token) :
    run (dimension g) (t :: rest) = none :=
  run_bind_eq_none (run_annotations_of_plain g ends.unmarked rest)
    (run_symbol_bind_eq_none ends.dimension)

theorem run_typeArguments_eq_none {ts : List Token}
    (other : ts.head?.any (·.isSymbol "<") = false) : run (typeArguments g) ts = none :=
  run_symbol_bind_eq_none other

/-- The type of a name with its arguments, if it has any. -/
def classRef (name : String) : Option (List TypeRef) → TypeRef
  | none => .named name
  | some arguments => .generic name arguments

/-- A segment of a name is taken with the arguments behind it; the name began with the tokens in
front. -/
theorem takes_typeSegment (front : List Token) (i : Identifier) {args rest : List Token}
    {arguments? : Option (List TypeRef)}
    (taken : Takes (optional (typeArguments g)) args rest arguments? false) :
    Takes (typeSegment g [] (front ++ i.token :: (args ++ rest))) (i.token :: args) rest
      (classRef (Token.textOf (front ++ [i.token])) arguments?) false := by
  have name : (front ++ i.token :: (args ++ rest)).take
      ((front ++ i.token :: (args ++ rest)).length - (args ++ rest).length)
      = front ++ [i.token] := by
    rw [List.append_cons, List.length_append, Nat.add_sub_cancel, List.take_left]
  rw [← name]
  refine .wordExcept_bind rfl (.ahead_bind (taken.bind_nil ?_))
  cases arguments? <;> exact .pure _ rest

/-- All segments of a name are taken, and the last one makes the type. -/
theorem exists_takes_segments (front : List Token) (i : Identifier) (is : List Identifier)
    {args rest : List Token} {arguments? : Option (List TypeRef)}
    (taken : Takes (optional (typeArguments g)) args rest arguments? false)
    (noDot : rest.head?.any (·.isSymbol ".") = false) {start : List Token}
    (started : start = front ++ i.token ::
      ((is.flatMap fun i => [.ofSymbol ".", i.token]) ++ (args ++ rest))) :
    ∃ ts us first more,
      i.token :: ((is.flatMap fun i => [.ofSymbol ".", i.token]) ++ args) = ts ++ us ∧
      Takes (typeSegment g [] start) ts (us ++ rest) first false ∧
      Takes (many (do symbol "."; let _ ← annotations g; typeSegment g [] start)) us rest more
        false ∧
      more.getLast?.getD first = classRef (Token.textOf (front ++ i.token ::
        is.flatMap fun i => [.ofSymbol ".", i.token])) arguments? := by
  induction is generalizing i front with
  | nil =>
    refine ⟨i.token :: args, [], _, [], by simp, ?_, .many_nil ?_, rfl⟩
    · rw [started]
      exact takes_typeSegment g front i taken
    · exact run_symbol_bind_eq_none noDot
  | cons j js ih =>
    obtain ⟨ts, us, first, more, split, segment, segments, last⟩ :=
      ih (front ++ [i.token, .ofSymbol "."]) j (by simp [started])
    have noArguments : Takes (optional (typeArguments g)) []
        (.ofSymbol "." :: (ts ++ us) ++ rest) none false :=
      run_optional_of_none (run_typeArguments_eq_none g rfl)
    have here := takes_typeSegment g front i noArguments
    have started' : start
        = front ++ i.token :: ([] ++ (.ofSymbol "." :: (ts ++ us) ++ rest)) := by
      simp [started, ← split]
    rw [← started'] at here
    have next : ts ++ (us ++ rest)
        = j.token :: ((js.flatMap fun i => [.ofSymbol ".", i.token]) ++ args ++ rest) := by
      rw [← List.append_assoc, ← split, List.cons_append]
    have unmarked := run_annotations_of_plain (t := j.token) g rfl
      ((js.flatMap fun i => [.ofSymbol ".", i.token]) ++ args ++ rest)
    rw [← next] at unmarked
    have another : Takes (do symbol "."; let _ ← annotations g; typeSegment g [] start)
        (.ofSymbol "." :: ts) (us ++ rest) first false :=
      .symbol_bind (.skip unmarked segment)
    refine ⟨[i.token], .ofSymbol "." :: (ts ++ us), _, first :: more, by simp [← split], here,
      Takes.many_cons (List.cons_ne_nil _ _) another segments, ?_⟩
    rw [List.getLast?_cons, Option.getD_some, last]
    simp

/-- For any type arguments that are read, so the rule need not know the types inside them. -/
theorem takes_simpleType (n : DottedName) {args rest : List Token}
    {arguments? : Option (List TypeRef)}
    (taken : Takes (optional (typeArguments g)) args rest arguments? false)
    (noDot : rest.head?.any (·.isSymbol ".") = false) :
    Takes (simpleTypeExcept g []) (n.tokens ++ args) rest (classRef n.text arguments?) false := by
  have noPrimitive : (n.first.token.isWord && primitiveWords.contains n.first.text) = false :=
    n.first.contains_eq_false (by decide)
  have started : n.tokens ++ args ++ rest = [] ++ n.first.token ::
      ((n.rest.flatMap fun i => [.ofSymbol ".", i.token]) ++ (args ++ rest)) := by
    simp [DottedName.tokens]
  obtain ⟨ts, us, first, more, split, segment, segments, last⟩ :=
    exists_takes_segments g [] n.first n.rest taken noDot started
  have tokens : n.tokens ++ args = ts ++ us := split
  have made : more.getLast?.getD first = classRef n.text arguments? := by
    rw [last, List.nil_append, ← n.textOf_tokens]
    rfl
  unfold simpleTypeExcept
  apply Takes.ahead_bind
  rw [if_neg (Bool.not_eq_true _ ▸ noPrimitive), ← made]
  rw [tokens] at segment segments ⊢
  exact segment.bind (segments.bind_nil (.pure _ rest))

theorem takes_primitive {text : String} (primitive : primitiveWords.contains text = true)
    (rest : List Token) :
    Takes (simpleTypeExcept g []) [.ofWord text] rest (.primitive text) false := by
  have isPrimitive : ([Token.ofWord text] ++ rest).head?.any
      (fun t => t.isWord && primitiveWords.contains t.text) = true := primitive
  unfold simpleTypeExcept
  apply Takes.ahead_bind
  rw [if_pos isPrimitive]
  exact .wordExcept_bind rfl (.pure _ _)

def dimensionTokens : Nat → List Token
  | 0 => []
  | n + 1 => .ofSymbol "[" :: .ofSymbol "]" :: dimensionTokens n

theorem takes_dimensions (n : Nat) {t : Token} (ends : EndsType t) (rest : List Token) :
    Takes (many (dimension g)) (dimensionTokens n) (t :: rest) (List.replicate n ()) false := by
  induction n with
  | zero => exact .many_nil (run_dimension_eq_none g ends rest)
  | succ n ih =>
    have one : Takes (dimension g) [.ofSymbol "[", .ofSymbol "]"]
        (dimensionTokens n ++ t :: rest) () false :=
      .skip (run_annotations_of_plain g rfl _) (.symbol_bind (.symbol "]" _))
    exact Takes.many_cons (List.cons_ne_nil _ _) one ih

theorem takes_plainType_of {ts : List Token} {element : TypeRef} (n : Nat) {t : Token}
    (ends : EndsType t) (rest : List Token)
    (simple : Takes (simpleTypeExcept g []) ts (dimensionTokens n ++ t :: rest) element false) :
    Takes (plainType g) (ts ++ dimensionTokens n) (t :: rest) (element.arrays n) false := by
  have count : (List.replicate n ()).length = n := List.length_replicate
  refine simple.bind ((takes_dimensions g n ends rest).bind_nil ?_)
  rw [count]
  exact .pure _ _

/-- Tokens that are read as a type in front of what ends one. -/
structure ReadsAsType (ts : List Token) (type : TypeRef) : Prop where
  begins : BeginsType ts
  taken : ∀ (t : Token) (rest : List Token), EndsType t →
    Takes (plainType g) ts (t :: rest) type false

/-- The first two tokens of a type and what follows it. -/
theorem ReadsAsType.exists_two {ts : List Token} {type : TypeRef} (h : ReadsAsType g ts type)
    {t : Token} (after : AfterTypeWord t) (rest : List Token) :
    ∃ text u us, ts ++ t :: rest = .ofWord text :: u :: us ∧ BeginsNone text ∧
      AfterTypeWord u := by
  obtain ⟨text, us, rfl, free, next⟩ := h.begins
  cases us with
  | nil => exact ⟨text, t, rest, rfl, free, after⟩
  | cons u us => exact ⟨text, u, us ++ t :: rest, rfl, free, next u rfl⟩

theorem readsAsType_void : ReadsAsType g [.ofWord "void"] (.primitive "void") where
  begins := ⟨"void", [], rfl, ⟨rfl, by decide⟩, by simp⟩
  taken t rest ends := takes_plainType_of g 0 ends rest (takes_primitive g (by decide) (t :: rest))

/-! ## Parameters -/

theorem run_innerModifiers_nil {text : String} (free : modifierWords.contains text = false)
    {t : Token} (noDash : t.isSymbol "-" = false) (rest : List Token) :
    run (innerModifiers g) (.ofWord text :: t :: rest)
      = some ⟨{}, false, 0, .ofWord text :: t :: rest⟩ := by
  unfold innerModifiers
  rw [run_bind, run_many_of_none (run_modifier_eq_none _ rest free noDash)]
  rfl

/-- Parameters are followed by a comma or by the closing parenthesis. -/
def AfterParameter (ts : List Token) : Prop :=
  ∃ text rest, ts = .ofSymbol text :: rest ∧ text ∈ [",", ")"]

def ReadsAsParameter (us : List Token) (type : TypeRef) : Prop :=
  ∃ ts spread, ∃ name : Identifier,
    us = ts ++ (spreadTokens spread ++ [name.token]) ∧ ReadsAsType g ts type

theorem takes_variableName {taken : List String} {name : Identifier}
    (free : taken.contains name.text = false) {t : Token} (ends : EndsType t)
    (rest : List Token) : Takes (variableName g taken) [name.token] (t :: rest) () false :=
  .wordExcept_bind free (.many_bind (run_dimension_eq_none g ends rest) (.pure _ _))

theorem takes_variableDeclarator (name : Identifier) {t : Token} (ends : EndsType t)
    (noValue : t.isSymbol "=" = false) (rest : List Token) :
    Takes (variableDeclarator g) [name.token] (t :: rest) () false :=
  (takes_variableName g rfl ends rest).bind_nil (.when_bind (by simpa using noValue) (.pure _ _))

theorem run_plainTypeExcept_eq_none (taken : List String) {t : Token} (noWord : t.isWord = false)
    (rest : List Token) : run (plainTypeExcept g taken) (t :: rest) = none := by
  have noPrimitive : (t.isWord && primitiveWords.contains t.text) = false := by
    rw [noWord, Bool.false_and]
  have noName : run (wordExcept []) (t :: rest) = none := by
    rw [run_wordExcept_cons, noWord]
    rfl
  have noSimple : run (simpleTypeExcept g taken) (t :: rest) = none := by
    rw [simpleTypeExcept, run_ahead_bind, if_neg (Bool.not_eq_true _ ▸ noPrimitive)]
    exact run_bind_of_none (run_bind_of_none noName)
  exact run_bind_of_none noSimple

/-- A receiver without annotations and modifiers. -/
theorem run_receiverParameter_cons {t : Token} (unmarked : t.beginsAnnotation = false)
    (noModifier : (t.isWord && modifierWords.contains t.text) = false) (rest : List Token) :
    run (receiverParameter g) (t :: rest) = run (do
      let _ ← plainType g
      let _ ← optional (do
        let _ ← wordExcept ("this" :: "_" :: reservedWords)
        symbol "."
        many (do let _ ← word; symbol "."))
      keyword "this") (t :: rest) := by
  rw [receiverParameter, run_bind_of_skip (run_annotations_of_plain g unmarked rest), nextIsIn,
    run_bind_of_skip (run_nextIs _ _)]
  exact congrArg (run · _) (if_neg (Bool.not_eq_true _ ▸ noModifier))

/-- What follows the type of a parameter. -/
theorem spreadTokens_starts (spread : Bool) (name : Identifier) (rest : List Token) :
    ∃ t later, spreadTokens spread ++ [name.token] ++ rest = t :: later ∧ EndsType t ∧
      AfterTypeWord t := by
  cases spread <;> exact ⟨_, _, rfl, ⟨rfl, rfl, rfl, rfl⟩, ⟨rfl, rfl, rfl⟩⟩

section Parameter

variable {us rest : List Token} {type : TypeRef} (h : ReadsAsParameter g us type)
  (after : AfterParameter rest)

include h after

theorem takes_parameter (first : Bool) : Takes (parameter g first) us rest type false := by
  obtain ⟨ts, spread, name, rfl, typed⟩ := h
  obtain ⟨t, later, follows, ends, next⟩ := spreadTokens_starts spread name rest
  obtain ⟨start, u, vs, shape, free, second⟩ := typed.exists_two g next later
  have noModifiers := run_innerModifiers_nil g free.modifier second.dash vs
  rw [← shape, ← follows, ← List.append_assoc] at noModifiers
  have taken := typed.taken t later ends
  rw [← follows] at taken
  obtain ⟨text, rest, rfl, separator⟩ := after
  have endsHere : EndsType (.ofSymbol text) :=
    endsType_of_mem (List.mem_append_left [";", "\x7b"] separator)
  have noValue := Token.isSymbol_eq_false_of_mem separator "=" (by decide)
  refine .skip noModifiers (.bind taken ?_)
  cases spread with
  | false =>
    have named : (if first && true then ["this"] else []).contains name.text = false :=
      name.contains_eq_false (by cases first <;> decide)
    exact .nextIs_bind false rfl ((takes_variableName g named endsHere rest).bind_nil (.pure _ _))
  | true =>
    refine .nextIs_bind true rfl (.symbol_bind ?_)
    refine .skip (run_annotations_of_plain g rfl _) ?_
    exact (takes_variableDeclarator g name endsHere noValue rest).bind_nil (.pure _ _)

/-- A parameter with a name is no receiver. -/
theorem run_receiverParameter_eq_none : run (receiverParameter g) (us ++ rest) = none := by
  obtain ⟨ts, spread, name, rfl, typed⟩ := h
  obtain ⟨t, later, follows, ends, next⟩ := spreadTokens_starts spread name rest
  obtain ⟨start, u, vs, shape, free, -⟩ := typed.exists_two g next later
  obtain ⟨text, rest, rfl, separator⟩ := after
  have taken := typed.taken t later ends
  have noModifier : ((Token.ofWord start).isWord && modifierWords.contains start) = false := by
    rw [free.modifier, Bool.and_false]
  rw [List.append_assoc, follows, shape, run_receiverParameter_cons g rfl noModifier, ← shape]
  refine run_bind_eq_none taken ?_
  rw [← follows]
  cases spread with
  | true => exact run_bind_eq_none (run_optional_of_none rfl) rfl
  | false =>
    have noDot := Token.isSymbol_eq_false_of_mem separator "." (by decide)
    have noOuter : run (do
        let _ ← wordExcept ("this" :: "_" :: reservedWords)
        symbol "."
        many (do let _ ← word; symbol ".")) (name.token :: .ofSymbol text :: rest) = none := by
      rw [run_bind, run_wordExcept_cons]
      split
      · rw [Option.bind_some, run_symbol_bind_eq_none (by simpa using noDot)]
        rfl
      · rfl
    have noThis : run (keyword "this") (name.token :: .ofSymbol text :: rest) = none := by
      rw [run_keyword_cons, Identifier.token, Token.isWordOf_ofWord, name.beq_eq_false (by decide)]
      rfl
    exact run_bind_eq_none (run_optional_of_none noOuter) noThis

end Parameter

/-- Parameters are taken if each of them is one. -/
theorem takes_parameters_of (items : List (List Token × TypeRef))
    (each : ∀ x ∈ items, ReadsAsParameter g x.1 x.2) (rest : List Token) :
    Takes (parameters g)
      (.ofSymbol "(" :: (commaTokens (items.map Prod.fst) ++ [.ofSymbol ")"])) rest
      (items.map Prod.snd) false := by
  cases items with
  | nil =>
    have noReceiver : run (receiverParameter g) (.ofSymbol ")" :: rest) = none := by
      rw [run_receiverParameter_cons g rfl rfl]
      exact run_bind_of_none (run_plainTypeExcept_eq_none g [] rfl rest)
    exact .symbol_bind
      (.optional_bind noReceiver (.nextIs_bind true rfl (.symbol_bind (.pure _ _))))
  | cons x xs =>
    rw [List.forall_mem_cons] at each
    have shape : commaTokens ((x :: xs).map Prod.fst) ++ [.ofSymbol ")"]
        = x.1 ++ (xs.flatMap (fun x => .ofSymbol "," :: x.1) ++ [.ofSymbol ")"]) := by
      simp [commaTokens, List.flatMap_map]
    have follows : AfterParameter (xs.flatMap (fun x => .ofSymbol "," :: x.1)
        ++ [.ofSymbol ")"] ++ rest) := by
      cases xs with
      | nil => exact ⟨")", rest, rfl, by decide⟩
      | cons y ys => exact ⟨",", _, rfl, by decide⟩
    have more : Takes (many (do symbol ","; parameter g false))
        (xs.flatMap fun x => .ofSymbol "," :: x.1) (.ofSymbol ")" :: rest) (xs.map Prod.snd)
        false :=
      .many_separated xs "," AfterParameter (fun later => ⟨",", later, rfl, by decide⟩)
        ⟨")", rest, rfl, by decide⟩ rfl fun y mem _ after =>
          takes_parameter g (each.2 y mem) after false
    have noClose (later : List Token) :
        (x.1 ++ later).head?.any (fun t => t.isSymbol ")") = false := by
      obtain ⟨ts, spread, name, eq, typed⟩ := each.1
      obtain ⟨text, us, rfl, -⟩ := typed.begins
      rw [eq]
      rfl
    rw [shape]
    refine .symbol_bind (.optional_bind ?_ (.nextIs_bind false ?_ ?_))
    · rw [List.append_assoc]
      exact run_receiverParameter_eq_none g each.1 follows
    · rw [List.append_assoc]
      exact noClose _
    · exact .bind (takes_parameter g each.1 follows true) (more.bind (.symbol_bind (.pure _ _)))

/-! ## Bodies without statements -/

theorem takes_block (rest : List Token) : Takes (block g) emptyBody rest () false :=
  .symbol_bind ((Takes.upTo_nil _ g.statement rest).bind_nil (.pure _ rest))

theorem run_throwsClause {ts : List Token} (other : ts.head?.any (·.isWordOf "throws") = false) :
    run (throwsClause g) ts = some ⟨(), false, 0, ts⟩ := by
  rw [throwsClause, run_bind_of_skip (run_whenWord_of_false other)]
  rfl

/-- For any parameters that are read: of a method only the note on tests is kept. -/
theorem takes_methodRest (m : Modifiers) {ps rest : List Token} {types : List TypeRef}
    (taken : Takes (parameters g) ps (emptyBody ++ rest) types false) :
    Takes (methodRest g m) (ps ++ emptyBody) rest () m.marksTest := by
  refine .bind taken ?_
  refine .many_bind (run_dimension_eq_none g (endsType_of_mem (by decide)) _) ?_
  refine .skip (run_throwsClause g rfl) ?_
  exact .nextIs_bind false rfl ((takes_block g rest).bind_last rfl)

/-- An empty body does not begin with a call of another constructor. -/
theorem run_constructorCall_eq_none (rest : List Token) :
    run (constructorCall g) (.ofSymbol "\x7d" :: rest) = none := by
  have noType : run (typeOverExpression g) (.ofSymbol "\x7d" :: rest) = none := by
    rw [typeOverExpression, nextIsIn, run_bind_of_skip (run_nextIs _ _)]
    refine (run_bind_of_skip (run_annotations_of_plain g rfl rest)).trans ?_
    exact run_plainTypeExcept_eq_none g ["class"] rfl rest
  have noHead : run (primaryHead g) (.ofSymbol "\x7d" :: rest) = none := by
    have asType : run (primaryHead g) (.ofSymbol "\x7d" :: rest)
        = run (do typeForm g; return .value) (.ofSymbol "\x7d" :: rest) := by
      rw [primaryHead, run_ahead_bind]
      rfl
    rw [asType]
    apply run_bind_of_none
    rw [typeForm, run_ahead_bind, run_bind_of_none noType]
  have noOwn : run (do
      let _ ← when "<" (typeArguments g)
      let _ ← satisfy fun t => t.isWordOf "this" || t.isWordOf "super")
      (.ofSymbol "\x7d" :: rest) = none := by
    rw [run_bind_of_skip (run_when_of_false rfl)]
    exact run_bind_of_none (run_satisfy_cons _ _ rest)
  have noOuter : run (do
      let _ ← primary g
      symbol "."
      let _ ← when "<" (typeArguments g)
      keyword "super") (.ofSymbol "\x7d" :: rest) = none :=
    run_bind_of_none (run_bind_of_none noHead)
  rw [constructorCall, run_orElse, run_bind_of_none noOwn, run_bind_of_none noOuter]
  rfl

theorem takes_constructorRest (name : Identifier) {ps rest : List Token} {types : List TypeRef}
    (taken : Takes (parameters g) ps (emptyBody ++ rest) types false) :
    Takes (constructorRest g) (name.token :: (ps ++ emptyBody)) rest types false := by
  have body : Takes (constructorBody g) emptyBody rest () false := by
    refine .symbol_bind (.optional_bind (run_constructorCall_eq_none g rest) ?_)
    exact (Takes.upTo_nil _ g.statement rest).bind_nil (.pure _ rest)
  exact .wordExcept_bind rfl
    (.bind taken (.skip (run_throwsClause g rfl) (body.bind_nil (.pure _ rest))))

/-! ## Types -/

theorem run_typesAfter {text : String} {ts : List Token}
    (other : ts.head?.any (·.isWordOf text) = false) :
    run (typesAfter g text) ts = some ⟨(), false, 0, ts⟩ := by
  rw [typesAfter, run_bind_of_skip (run_whenWord_of_false other)]
  rfl

/-- An enum constant is followed by another one or by the end of the constants. -/
def AfterConstant (ts : List Token) : Prop :=
  ∃ text rest, ts = .ofSymbol text :: rest ∧ text ∈ [",", ";", "\x7d"]

theorem takes_enumConstant (i : Identifier) {rest : List Token} (after : AfterConstant rest) :
    Takes (enumConstant g) [i.token] rest () false := by
  obtain ⟨text, rest, rfl, separator⟩ := after
  have others := Token.isSymbol_eq_false_of_mem separator
  have free : modifierWords.contains i.text = false := i.contains_eq_false (by decide)
  refine .skip (run_innerModifiers_nil g free (others "-" (by decide)) rest) ?_
  refine .wordExcept_bind free (.when_bind (others "(" (by decide)) ?_)
  exact .when_bind (others "\x7b" (by decide)) (.pure _ _)

/-- By induction on the constants; the token behind the last one is no comma. -/
theorem takes_constants (i : Identifier) (is : List Identifier) {text : String}
    (rest : List Token) (ends : text ∈ [";", "\x7d"]) :
    Takes (separated "," (enumConstant g)) (commaTokens ((i :: is).map fun i => [i.token]))
      (.ofSymbol text :: rest) ((i :: is).map fun _ => ()) false := by
  have stops := Token.isSymbol_eq_false_of_mem ends "," (by decide)
  have all := Takes.separated is "," AfterConstant i (fun later => ⟨",", later, rfl, by decide⟩)
    ⟨text, rest, rfl, List.mem_cons_of_mem "," ends⟩ stops
    fun j _ after => takes_enumConstant g j after
  rwa [List.map_cons, commaTokens, List.flatMap_map]

/-- The constants of an enum are read, and then what follows them. -/
theorem takes_enumBody (constants : List Identifier) {text : String} {us rest : List Token}
    {members : List Java.Member} {tests : Bool} (ends : text ∈ [";", "\x7d"])
    (more : Takes (do
      if ← nextIsSymbol ";" then
        symbol ";"
        let members ← upTo "\x7d" (g.member .classBody)
        return members.flatten
      else
        symbol "\x7d"
        return []) (.ofSymbol text :: us) rest members tests) :
    Takes (enumBody g) (.ofSymbol "\x7b" :: (commaTokens (constants.map fun i => [i.token])
      ++ .ofSymbol text :: us)) rest members tests := by
  have noComma := Token.isSymbol_eq_false_of_mem ends "," (by decide)
  refine .symbol_bind ?_
  cases constants with
  | nil =>
    have ended : ((Token.ofSymbol text).isSymbol "," || (Token.ofSymbol text).isSymbol ";"
        || (Token.ofSymbol text).isSymbol "\x7d") = true := by
      rw [noComma]
      simpa using ends
    exact .nextIs_bind true ended (.when_bind noComma more)
  | cons i is =>
    refine .nextIs_bind false rfl (.bind (takes_constants g i is _ ends) ?_)
    exact .when_bind noComma more

section Body

variable {body rest : List Token} {members : List (List Java.Member)} {tests : Bool}
  (inside : Takes (upTo "\x7d" (g.member .classBody)) (body ++ [.ofSymbol "\x7d"]) rest members
    tests)

include inside

theorem takes_classBody : Takes (classBody g) (.ofSymbol "\x7b" :: (body ++ [.ofSymbol "\x7d"]))
    rest members.flatten tests :=
  .symbol_bind (inside.bind_nil (.pure _ rest))

theorem takes_classRest (m : Modifiers) (name : Identifier) :
    Takes (classRest g m)
      (.ofWord "class" :: name.token :: .ofSymbol "\x7b" :: (body ++ [.ofSymbol "\x7d"])) rest
      { kind := .classType, name := name.text, modifiers := m, members := members.flatten }
      tests := by
  refine .keyword_bind (.wordExcept_bind rfl (.when_bind rfl (.whenWord_bind rfl ?_)))
  refine .skip (run_typesAfter g rfl) (.skip (run_typesAfter g rfl) ?_)
  exact (takes_classBody g inside).bind_nil (.pure _ rest)

theorem takes_recordRest (m : Modifiers) (name : Identifier) {ps : List Token}
    {components : List TypeRef}
    (header : Takes (parameters g) (.ofSymbol "(" :: ps)
      (.ofSymbol "\x7b" :: (body ++ [.ofSymbol "\x7d"]) ++ rest) components false) :
    Takes (recordRest g m) (.ofWord "record" :: name.token :: (.ofSymbol "(" :: ps
      ++ .ofSymbol "\x7b" :: (body ++ [.ofSymbol "\x7d"]))) rest
      { kind := .recordType, name := name.text, modifiers := m, components,
        members := members.flatten } tests := by
  refine .keyword_bind (.wordExcept_bind rfl (.when_bind rfl (.bind header ?_)))
  exact .skip (run_typesAfter g rfl) ((takes_classBody g inside).bind_nil (.pure _ rest))

theorem takes_enumBody_members (constants : List Identifier) :
    Takes (enumBody g) (.ofSymbol "\x7b" :: (commaTokens (constants.map fun i => [i.token])
      ++ .ofSymbol ";" :: (body ++ [.ofSymbol "\x7d"]))) rest members.flatten tests :=
  takes_enumBody g constants (by decide)
    (.nextIs_bind true rfl (.symbol_bind (inside.bind_nil (.pure _ rest))))

end Body

theorem takes_enumBody_constants (constants : List Identifier) (rest : List Token) :
    Takes (enumBody g) (.ofSymbol "\x7b" :: (commaTokens (constants.map fun i => [i.token])
      ++ [.ofSymbol "\x7d"])) rest [] false :=
  takes_enumBody g constants (by decide) (.nextIs_bind false rfl (.symbol_bind (.pure _ rest)))

/-! ## Members -/

/-- A member behind its annotations. -/
theorem takes_memberRule (annotations : List DottedName) (isFinal : Bool) {text : String}
    {t : Token} {us rest : List Token} {members : List Java.Member} {tests : Bool}
    (free : modifierWords.contains text = false) (noDash : t.isSymbol "-" = false)
    (more : Takes (memberRest g .classBody (declaredModifiers annotations isFinal))
      (.ofWord text :: t :: us) rest members tests) :
    Takes (memberRule g .classBody) (annotationTokens annotations
      ++ ((if isFinal then [.ofWord "final"] else []) ++ .ofWord text :: t :: us)) rest
      members tests := by
  have first : ∃ u v vs, annotationTokens annotations
      ++ ((if isFinal then [.ofWord "final"] else []) ++ .ofWord text :: t :: us) = u :: v :: vs ∧
      u.isSymbol ";" = false ∧ u.isSymbol "\x7b" = false ∧ u.isWordOf "static" = false := by
    have noStatic : (text == "static") = false := by
      simpa using fun eq : text = "static" => absurd (eq ▸ free) (by decide)
    cases annotations with
    | nil =>
      cases isFinal with
      | false => exact ⟨_, _, _, rfl, rfl, rfl, noStatic⟩
      | true => exact ⟨_, _, _, rfl, rfl, rfl, rfl⟩
    | cons n ns => exact ⟨_, _, _, rfl, rfl, rfl, rfl⟩
  obtain ⟨u, v, vs, eq, noSemicolon, noBlock, noStatic⟩ := first
  have noStaticBlock : startsStaticBlock (u :: v :: vs ++ rest) = false := by
    rw [List.cons_append, List.cons_append, startsStaticBlock, noStatic, Bool.false_and]
  have shape := (takes_modifiers g annotations isFinal (us ++ rest) free noDash).bind more
  rw [List.append_assoc] at shape
  rw [eq] at shape ⊢
  unfold memberRule
  apply Takes.ahead_bind
  rw [if_neg (Bool.not_eq_true _ ▸ noSemicolon), if_neg (Bool.not_eq_true _ ▸ noBlock),
    if_neg (Bool.not_eq_true _ ▸ noStaticBlock)]
  exact shape

/-- A member that is no type, behind its modifiers. -/
theorem takes_memberRest {m : Modifiers} {text : String} {t : Token} {us rest : List Token}
    {members : List Java.Member} {tests : Bool}
    (noType : text ∉ ["class", "interface", "enum", "record"])
    (more : Takes (if !primitiveWords.contains text && t.isSymbol "(" then
        (do return [.constructor (← constructorRest g)])
      else if !primitiveWords.contains text && t.isSymbol "\x7b" then
        (do let _ ← word; block g; return [.other])
      else typedMember g .classBody m) (.ofWord text :: t :: us) rest members tests) :
    Takes (memberRest g .classBody m) (.ofWord text :: t :: us) rest members tests := by
  have others (other : String) (isIn : other ∈ ["class", "interface", "enum", "record"]) :
      (Token.ofWord text).isWordOf other = false := by
    simpa using fun eq : text = other => noType (eq ▸ isIn)
  have noTypeStarts : startsType (.ofWord text :: t :: us ++ rest) = false := by
    rw [List.cons_append, startsType, others "class" (by decide), others "interface" (by decide),
      others "enum" (by decide)]
    rfl
  have noRecord : ((Token.ofWord text).isWordOf "record" && true) = false := by
    rw [others "record" (by decide), Bool.false_and]
  unfold memberRest
  apply Takes.ahead_bind
  rw [if_neg (Bool.not_eq_true _ ▸ noTypeStarts), if_neg (Bool.not_eq_true _ ▸ noRecord)]
  exact more

/-- A member that begins with its type. -/
theorem takes_typed (annotations : List DottedName) (isFinal : Bool) {ts us rest : List Token}
    {type : TypeRef} (typed : ReadsAsType g ts type) {name : Identifier}
    {members : List Java.Member} {tests : Bool}
    (member : Takes (typedMember g .classBody (declaredModifiers annotations isFinal))
      (ts ++ name.token :: us) rest members tests) :
    Takes (memberRule g .classBody) (annotationTokens annotations
      ++ ((if isFinal then [.ofWord "final"] else []) ++ (ts ++ name.token :: us))) rest
      members tests := by
  obtain ⟨text, u, vs, shape, free, second⟩ :=
    typed.exists_two (t := name.token) g ⟨rfl, rfl, rfl⟩ us
  rw [shape] at member ⊢
  apply takes_memberRule g annotations isFinal free.modifier second.dash
  apply takes_memberRest g free.declaration
  rw [if_neg (by simp [second.parameters]), if_neg (by simp [second.block])]
  exact member

/-- The semicolon behind the name tells a field from a method. -/
theorem takes_field (annotations : List DottedName) (isFinal : Bool) {ts : List Token}
    {type : TypeRef} (typed : ReadsAsType g ts type) (name : Identifier) (rest : List Token) :
    Takes (memberRule g .classBody) (annotationTokens annotations
      ++ ((if isFinal then [.ofWord "final"] else []) ++ (ts ++ [name.token, .ofSymbol ";"]))) rest
      [.field (declaredModifiers annotations isFinal) type] false := by
  have ended : Takes (variablesRest g) [name.token, .ofSymbol ";"] rest () false := by
    have ends : EndsType (.ofSymbol ";") := endsType_of_mem (by decide)
    have declarator := takes_variableDeclarator g name ends rfl rest
    have all : Takes (separated "," (variableDeclarator g)) [name.token] (.ofSymbol ";" :: rest)
        [()] false :=
      declarator.bind_nil (.many_bind (run_symbol_bind_eq_none rfl) (.pure _ _))
    exact .one_bind all (.symbol ";" rest)
  apply takes_typed g annotations isFinal typed
  exact .bind (typed.taken name.token (.ofSymbol ";" :: rest) (endsType_ofWord _))
    (.ahead_bind (ended.bind_nil (.pure _ rest)))

section Parameters

variable {us rest : List Token} {types : List TypeRef}
  (taken : Takes (parameters g) (.ofSymbol "(" :: us) (emptyBody ++ rest) types false)

include taken

/-- The parenthesis behind the name tells a method from a field. -/
theorem takes_method (annotations : List DottedName) {ts : List Token} {type : TypeRef}
    (typed : ReadsAsType g ts type) (name : Identifier) :
    Takes (memberRule g .classBody) (annotationTokens annotations
      ++ (ts ++ name.token :: (.ofSymbol "(" :: us ++ emptyBody))) rest [.other]
      (declaredModifiers annotations false).marksTest := by
  have named : (true && !(name.text == "_")) = true := by rw [name.beq_eq_false (by decide)]; rfl
  apply takes_typed g annotations false typed
  refine .bind (typed.taken name.token _ (endsType_ofWord _)) (.ahead_bind ?_)
  change Takes (if (true && !(name.text == "_")) = true then _ else _) _ _ _ _
  rw [if_pos named]
  exact .wordExcept_bind rfl ((takes_methodRest g _ taken).bind_nil (.pure _ rest))

/-- A name with a parenthesis right behind it is no type. -/
theorem takes_constructor (name : Identifier) :
    Takes (memberRule g .classBody) (name.token :: (.ofSymbol "(" :: us ++ emptyBody)) rest
      [.constructor types] false := by
  have noPrimitive : primitiveWords.contains name.text = false :=
    name.contains_eq_false (by decide)
  apply takes_memberRule g [] false (name.contains_eq_false (by decide)) rfl
  apply takes_memberRest
  · exact name.notMem (by decide)
  rw [if_pos (by rw [noPrimitive]; rfl)]
  exact (takes_constructorRest g name taken).bind_nil (.pure _ rest)

end Parameters

/-- Of a nested type nothing is kept but whether it declares a test. -/
theorem takes_nested (annotations : List DottedName) (name : Identifier) {body rest : List Token}
    {members : List (List Java.Member)} {tests : Bool}
    (inside : Takes (upTo "\x7d" (g.member .classBody)) (body ++ [.ofSymbol "\x7d"]) rest members
      tests) :
    Takes (memberRule g .classBody) (typeTokens annotations "class" name [] body) rest [.other]
      tests := by
  have declaration : Takes (typeRest g (declaredModifiers annotations false)) _ rest _ tests :=
    .nextIs_bind true rfl (takes_classRest g inside _ name)
  apply takes_memberRule g annotations false rfl rfl
  exact .ahead_bind (declaration.bind_nil (.pure _ rest))

end Grammar

end ChangeImpact.Java
