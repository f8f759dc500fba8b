import ChangeImpact.Proofs.Java.Agreement
import ChangeImpact.Proofs.Java.TypeSyntax

/-!
# Parsers that take given tokens

A parser takes some tokens in front of others if it reads the first and leaves the others. Such
statements follow the shape of a parser: a sequence takes what its parts take one after the
other, and a repetition takes written items up to where none follows.

## Main definitions

* `Parser.Takes`: a parser takes some tokens in front of others, with a value.

## Main statements

* `Parser.Takes.bind` and the lemmas behind it: a sequence, by its first part.
* `Parser.Takes.many_flatMap`, `Parser.Takes.upTo_flatMap`, `Parser.Takes.toEnd_flatMap`:
  repetitions.
-/

namespace ChangeImpact.Java.Parser

variable {α β : Type}

/-- A parser takes some tokens in front of others, with a value and a note on test methods. -/
def Takes (p : Parser α) (ts rest : List Token) (a : α) (tests : Bool) : Prop :=
  run p (ts ++ rest) = some ⟨a, tests, ts.length, rest⟩

/-! ## Parsers that take nothing -/

theorem run_nextIs (test : Token → Bool) (ts : List Token) :
    run (nextIs test) ts = some ⟨ts.head?.any test, false, 0, ts⟩ :=
  rfl

theorem run_keyword_cons (text : String) (t : Token) (rest : List Token) :
    run (keyword text) (t :: rest)
      = if t.isWordOf text then some ⟨(), false, 1, rest⟩ else none := by
  rw [keyword, run_bind, run_satisfy_cons]
  split <;> rfl

theorem run_wordExcept_cons (taken : List String) (t : Token) (rest : List Token) :
    run (wordExcept taken) (t :: rest)
      = if t.isWord && !taken.contains t.text then some ⟨t.text, false, 1, rest⟩ else none := by
  rw [wordExcept, run_bind, run_satisfy_cons]
  split <;> rfl

/-- A first part that takes nothing. -/
theorem run_bind_of_skip {p : Parser α} {f : α → Parser β} {ts : List Token} {a : α}
    (first : run p ts = some ⟨a, false, 0, ts⟩) : run (p >>= f) ts = run (f a) ts := by
  rw [run_bind, first, Option.bind_some]
  cases run (f a) ts <;> simp

/-- A sequence fails if its first part does. -/
theorem run_bind_of_none {p : Parser α} {f : α → Parser β} {ts : List Token}
    (first : run p ts = none) : run (p >>= f) ts = none := by
  rw [run_bind, first, Option.bind_none]

/-- A sequence fails if its second part does. -/
theorem run_bind_eq_none {p : Parser α} {f : α → Parser β} {ts : List Token} {s : Success α}
    (first : run p ts = some s) (second : run (f s.value) s.rest = none) :
    run (p >>= f) ts = none := by
  rw [run_bind, first, Option.bind_some, second, Option.map_none]

theorem run_symbol_bind_eq_none {text : String} {f : Unit → Parser β} {ts : List Token}
    (h : ts.head?.any (·.isSymbol text) = false) : run (symbol text >>= f) ts = none := by
  cases ts with
  | nil => rfl
  | cons t rest =>
    have other : t.isSymbol text = false := by simpa using h
    apply run_bind_of_none
    rw [run_symbol_cons, other]
    rfl

theorem run_optional_of_none {p : Parser α} {ts : List Token} (h : run p ts = none) :
    run (optional p) ts = some ⟨none, false, 0, ts⟩ := by
  rw [optional, run_orElse, run_bind, h]
  rfl

theorem run_when_of_false {text : String} {p : Parser α} {ts : List Token}
    (h : ts.head?.any (·.isSymbol text) = false) :
    run (when text p) ts = some ⟨none, false, 0, ts⟩ := by
  rw [when, run_bind, run_nextIsSymbol, h]
  rfl

theorem run_whenWord_of_false {text : String} {p : Parser α} {ts : List Token}
    (h : ts.head?.any (·.isWordOf text) = false) :
    run (whenWord text p) ts = some ⟨none, false, 0, ts⟩ := by
  rw [whenWord, run_bind, nextIsWord, run_nextIs, h]
  rfl

theorem run_many_of_none {p : Parser α} {ts : List Token} (h : run p ts = none) :
    run (many p) ts = some ⟨[], false, 0, ts⟩ := by
  rw [run_many, h]

namespace Takes

variable {p : Parser α} {f : α → Parser β} {ts us rest : List Token} {a : α} {b : β}
  {tests later : Bool}

/-! ## Sequences -/

theorem pure (a : α) (rest : List Token) : Takes (pure a) [] rest a false := rfl

theorem symbol_of {t : Token} {text : String} (h : t.isSymbol text = true) (rest : List Token) :
    Takes (symbol text) [t] rest () false := by
  rw [Takes, List.singleton_append, run_symbol_cons, if_pos h]
  rfl

theorem symbol (text : String) (rest : List Token) :
    Takes (symbol text) [.ofSymbol text] rest () false :=
  symbol_of (by simp) rest

theorem keyword (text : String) (rest : List Token) :
    Takes (keyword text) [.ofWord text] rest () false := by
  rw [Takes, List.singleton_append, run_keyword_cons, if_pos (by simp)]
  rfl

theorem wordExcept {taken : List String} {text : String} (free : taken.contains text = false)
    (rest : List Token) : Takes (wordExcept taken) [.ofWord text] rest text false := by
  have passes : (true && !taken.contains text) = true := by rw [free]; rfl
  rw [Takes, List.singleton_append, run_wordExcept_cons]
  exact if_pos passes

/-- A first part in which no test is declared. -/
theorem bind (first : Takes p ts (us ++ rest) a false) (second : Takes (f a) us rest b tests) :
    Takes (p >>= f) (ts ++ us) rest b tests := by
  rw [Takes] at first second ⊢
  rw [List.append_assoc, run_bind, first, Option.bind_some, second, Option.map_some,
    List.length_append]
  rfl

/-- A last part that takes nothing. -/
theorem bind_nil (first : Takes p ts rest a tests) (second : Takes (f a) [] rest b false) :
    Takes (p >>= f) ts rest b tests := by
  rw [Takes] at first second ⊢
  rw [List.nil_append] at second
  rw [run_bind, first, Option.bind_some, second, Option.map_some, Bool.or_false]
  rfl

/-- A last part that takes nothing but may note a test. -/
theorem bind_last (first : Takes p ts rest a false) (second : Takes (f a) [] rest b tests) :
    Takes (p >>= f) ts rest b tests := by
  have h := first.bind second
  rwa [List.append_nil] at h

/-- A first part that takes one token. -/
theorem one_bind {t : Token} (first : Takes p [t] (us ++ rest) a false)
    (second : Takes (f a) us rest b tests) : Takes (p >>= f) (t :: us) rest b tests :=
  first.bind second

theorem symbol_bind {text : String} {f : Unit → Parser β} (second : Takes (f ()) us rest b tests) :
    Takes (Parser.symbol text >>= f) (.ofSymbol text :: us) rest b tests :=
  (symbol text (us ++ rest)).one_bind second

theorem keyword_bind {text : String} {f : Unit → Parser β} (second : Takes (f ()) us rest b tests) :
    Takes (Parser.keyword text >>= f) (.ofWord text :: us) rest b tests :=
  (keyword text (us ++ rest)).one_bind second

theorem wordExcept_bind {taken : List String} {text : String} {f : String → Parser β}
    (free : taken.contains text = false) (second : Takes (f text) us rest b tests) :
    Takes (Parser.wordExcept taken >>= f) (.ofWord text :: us) rest b tests :=
  (wordExcept free (us ++ rest)).one_bind second

/-- A parser that takes nothing leaves all tokens to the next one. -/
theorem skip (first : run p (us ++ rest) = some ⟨a, false, 0, us ++ rest⟩)
    (second : Takes (f a) us rest b tests) : Takes (p >>= f) us rest b tests := by
  rw [Takes, run_bind_of_skip first, second]

theorem ahead_bind {f : List Token → Parser β} (second : Takes (f (us ++ rest)) us rest b tests) :
    Takes (ahead >>= f) us rest b tests :=
  skip rfl second

theorem when_bind {text : String} {f : Option α → Parser β}
    (other : (us ++ rest).head?.any (·.isSymbol text) = false)
    (second : Takes (f none) us rest b tests) : Takes (when text p >>= f) us rest b tests :=
  skip (run_when_of_false other) second

theorem whenWord_bind {text : String} {f : Option α → Parser β}
    (other : (us ++ rest).head?.any (·.isWordOf text) = false)
    (second : Takes (f none) us rest b tests) : Takes (whenWord text p >>= f) us rest b tests :=
  skip (run_whenWord_of_false other) second

theorem when {text : String} (next : (ts ++ rest).head?.any (·.isSymbol text) = true)
    (h : Takes p ts rest a tests) : Takes (when text p) ts rest (some a) tests := by
  refine skip (run_nextIsSymbol text (ts ++ rest)) ?_
  rw [if_pos next]
  exact h.bind_nil (pure _ rest)

theorem whenWord {text : String} (next : (ts ++ rest).head?.any (·.isWordOf text) = true)
    (h : Takes p ts rest a tests) : Takes (whenWord text p) ts rest (some a) tests := by
  refine skip (run_nextIs _ (ts ++ rest)) ?_
  rw [if_pos next]
  exact h.bind_nil (pure _ rest)

theorem optional_bind {f : Option α → Parser β} (first : run p (us ++ rest) = none)
    (second : Takes (f none) us rest b tests) : Takes (optional p >>= f) us rest b tests :=
  skip (run_optional_of_none first) second

theorem many_bind {f : List α → Parser β} (first : run p (us ++ rest) = none)
    (second : Takes (f []) us rest b tests) : Takes (many p >>= f) us rest b tests :=
  skip (run_many_of_none first) second

/-- A question about the next token, which is answered. -/
theorem nextIs_bind {test : Token → Bool} {f : Bool → Parser β} (answer : Bool)
    (answered : (us ++ rest).head?.any test = answer) (second : Takes (f answer) us rest b tests) :
    Takes (nextIs test >>= f) us rest b tests :=
  skip (answered ▸ run_nextIs test (us ++ rest)) second

theorem orElse {q : Unit → Parser α} (h : Takes p ts rest a tests) :
    Takes (orElse p q) ts rest a tests := by
  rw [Takes] at h ⊢
  rw [run_orElse, h, Option.some_or]

theorem optional (h : Takes p ts rest a tests) :
    Takes (optional p) ts rest (some a) tests := by
  have found : Takes (do return some (← p)) ts rest (some a) tests := h.bind_nil (pure _ rest)
  exact found.orElse

theorem withText (h : Takes p ts rest a tests) :
    Takes (withText p) ts rest (a, Token.textOf ts) tests := by
  rw [Takes] at h ⊢
  rw [run_withText, h, Option.map_some, List.take_left]

/-! ## Repetitions -/

section Repetition

theorem length_lt (written : ts ≠ []) (rest : List Token) : rest.length < (ts ++ rest).length := by
  have := List.length_pos_iff.mpr written
  rw [List.length_append]
  omega

variable {as : List α}

theorem many_nil (stops : run p rest = none) : Takes (many p) [] rest [] false :=
  run_many_of_none stops

/-- A round that takes nothing would end the repetition, so something must have been written. -/
theorem many_cons (written : ts ≠ []) (first : Takes p ts (us ++ rest) a tests)
    (more : Takes (many p) us rest as later) :
    Takes (many p) (ts ++ us) rest (a :: as) (tests || later) := by
  rw [Takes] at first more ⊢
  rw [List.append_assoc, run_many, first]
  simp only [if_pos (length_lt written (us ++ rest)), more, Option.map_some]
  rw [consSuccess, List.length_append]

theorem upTo_nil (close : String) (p : Parser α) (rest : List Token) :
    Takes (upTo close p) [.ofSymbol close] rest [] false := by
  rw [Takes, List.singleton_append, run_upTo_cons, if_pos (by simp)]
  rfl

theorem upTo_cons {close : String} {t : Token} (other : t.isSymbol close = false)
    (first : Takes p (t :: ts) (us ++ rest) a tests)
    (more : Takes (upTo close p) us rest as later) :
    Takes (upTo close p) (t :: ts ++ us) rest (a :: as) (tests || later) := by
  rw [Takes] at first more ⊢
  rw [List.append_assoc, List.cons_append, run_upTo_cons, other, ← List.cons_append, first]
  have shorter := length_lt (List.cons_ne_nil t ts) (us ++ rest)
  simp only [Bool.false_eq_true, if_false, Option.bind_some, if_pos shorter, more,
    Option.map_some]
  rw [consSuccess, List.length_append]

theorem toEnd_nil (p : Parser α) : Takes (toEnd p) [] [] [] false := run_toEnd_nil p

theorem toEnd_cons (written : ts ≠ []) (first : Takes p ts us a tests)
    (more : Takes (toEnd p) us [] as later) :
    Takes (toEnd p) (ts ++ us) [] (a :: as) (tests || later) := by
  obtain ⟨t, ts, rfl⟩ := List.exists_cons_of_ne_nil written
  rw [Takes, List.append_nil] at more ⊢
  rw [Takes] at first
  rw [List.cons_append, run_toEnd_cons, ← List.cons_append, first]
  simp only [Option.bind_some, if_pos (length_lt written us), more, Option.map_some]
  rw [consSuccess, List.length_append]

variable (items : List β) {tokens : β → List Token} {value : β → α}

/-- Written items are taken one after the other, if each is taken where another one follows or
what follows them all. -/
theorem many_flatMap (Follows : List Token → Prop) (written : ∀ x, tokens x ≠ [])
    (again : ∀ x later, Follows (tokens x ++ later)) (last : Follows (us ++ rest))
    (taken : ∀ x ∈ items, ∀ later, Follows later → Takes p (tokens x) later (value x) false)
    (more : Takes (many p) us rest as later) :
    Takes (many p) (items.flatMap tokens ++ us) rest (items.map value ++ as) later := by
  induction items with
  | nil => exact more
  | cons x items ih =>
    rw [List.forall_mem_cons] at taken
    have follows : Follows (items.flatMap tokens ++ us ++ rest) := by
      cases items with
      | nil => exact last
      | cons y ys =>
        rw [List.flatMap_cons, List.append_assoc, List.append_assoc]
        exact again y _
    rw [List.flatMap_cons, List.append_assoc]
    exact many_cons (written x) (taken.1 _ follows) (ih taken.2)

/-- Written items with a separator in front of each. -/
theorem many_separated (separator : String) (Follows : List Token → Prop)
    (again : ∀ later, Follows (.ofSymbol separator :: later)) (last : Follows rest)
    (stops : rest.head?.any (·.isSymbol separator) = false)
    (taken : ∀ x ∈ items, ∀ later, Follows later → Takes p (tokens x) later (value x) false) :
    Takes (many (do Parser.symbol separator; p))
      (items.flatMap fun x => .ofSymbol separator :: tokens x) rest (items.map value) false := by
  have item (x : β) (mem : x ∈ items) (later : List Token) (follows : Follows later) :
      Takes (do Parser.symbol separator; p) (.ofSymbol separator :: tokens x) later (value x)
        false :=
    symbol_bind (taken x mem later follows)
  have follows : Follows ([] ++ rest) := last
  have all := many_flatMap items Follows (fun x => List.cons_ne_nil _ _)
    (fun x later => again (tokens x ++ later)) follows item
    (many_nil (run_symbol_bind_eq_none stops))
  rwa [List.append_nil, List.append_nil] at all

/-- Written items with separators between them. -/
theorem separated (separator : String) (Follows : List Token → Prop) (x : β)
    (again : ∀ later, Follows (.ofSymbol separator :: later)) (last : Follows rest)
    (stops : rest.head?.any (·.isSymbol separator) = false)
    (taken : ∀ x later, Follows later → Takes p (tokens x) later (value x) false) :
    Takes (separated separator p)
      (tokens x ++ items.flatMap fun x => .ofSymbol separator :: tokens x) rest
      ((x :: items).map value) false := by
  have follows : Follows (items.flatMap (fun x => .ofSymbol separator :: tokens x) ++ rest) := by
    cases items with
    | nil => exact last
    | cons y ys => exact again _
  have more := many_separated items separator Follows again last stops fun y _ => taken y
  exact (taken x _ follows).bind (more.bind_nil (pure _ rest))

variable {declares : β → Bool}

/-- Written items are taken one after the other up to a separator that none begins with. -/
theorem upTo_flatMap {close : String}
    (starts : ∀ x ∈ items, ∃ t us, tokens x = t :: us ∧ t.isSymbol close = false)
    (taken : ∀ x ∈ items, ∀ later, Takes p (tokens x) later (value x) (declares x)) :
    Takes (upTo close p) (items.flatMap tokens ++ [.ofSymbol close]) rest (items.map value)
      (items.any declares) := by
  induction items with
  | nil => exact upTo_nil close p rest
  | cons x items ih =>
    rw [List.forall_mem_cons] at starts taken
    obtain ⟨t, us, eq, other⟩ := starts.1
    have first := taken.1 (items.flatMap tokens ++ [.ofSymbol close] ++ rest)
    rw [List.flatMap_cons, List.append_assoc, eq, List.map_cons, List.any_cons]
    exact upTo_cons other (eq ▸ first) (ih starts.2 taken.2)

/-- Written items are taken one after the other, and then all that follows. -/
theorem toEnd_flatMap (written : ∀ x ∈ items, tokens x ≠ [])
    (taken : ∀ x ∈ items, ∀ later, Takes p (tokens x) later (value x) (declares x))
    (more : Takes (toEnd p) us [] as later) :
    Takes (toEnd p) (items.flatMap tokens ++ us) [] (items.map value ++ as)
      (items.any declares || later) := by
  induction items with
  | nil => exact more
  | cons x items ih =>
    rw [List.forall_mem_cons] at written taken
    rw [List.flatMap_cons, List.append_assoc, List.map_cons, List.any_cons, Bool.or_assoc]
    exact toEnd_cons written.1 (taken.1 _) (ih written.2 taken.2)

end Repetition

end Takes

end ChangeImpact.Java.Parser
