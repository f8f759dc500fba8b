import ChangeImpact.Java.Parser
import ChangeImpact.Proofs.Java.Layout
import Mathlib.Data.List.Forall2

/-!
# Parsers that do not see the layout

Two parsers agree on a pair of sources with the same tokens if at each place both fail or
both take the same number of tokens and read related values. The ways to put parsers
together keep agreement, so it holds of a rule of the grammar if it holds of the rule's
parts.

A rule that agrees with itself is an instance of a class, and an instance for a rule is put
together from those for its parts. Most rules are used for what they take and not for what
they read, or they read something in which no layout is left.

## Main definitions

* `Parser.AgreesAt`: two parsers do the same at two places.
* `Parser.Agree`: two parsers do the same at every place of a pair of sources.
* `Parser.Alike`: a parser agrees with itself. In `Parser.ReadsAlike` the values that it
  reads are equal, in `Parser.TakesAlike` nothing is known of them.

## Main statements

* `Parser.AgreesAt.bind`, `Parser.AgreesAt.many`: agreement from place to place.
* `Parser.Agree.upTo`, `Parser.Agree.toEnd`: agreement of repetitions that end at a token.
-/

namespace ChangeImpact.Java

/-! ## Tests that do not see the layout -/

/-- A test of a token that does not depend on the layout in front of it. -/
class LayoutFree (f : Token → Bool) : Prop where
  eq : ∀ (t : Token) (layout : List Char), f (t.relaid layout) = f t

namespace LayoutFree

instance isWord : LayoutFree fun t => t.isWord := ⟨fun _ _ => rfl⟩

instance isWordOf (text : String) : LayoutFree fun t => t.isWordOf text := ⟨fun _ _ => rfl⟩

instance isSymbol (text : String) : LayoutFree fun t => t.isSymbol text := ⟨fun _ _ => rfl⟩

instance isKind (kind : Token.Kind) : LayoutFree fun t => t.kind == kind := ⟨fun _ _ => rfl⟩

instance isOneOf (texts : List String) : LayoutFree fun t => texts.contains t.text :=
  ⟨fun _ _ => rfl⟩

instance const (b : Bool) : LayoutFree fun _ => b := ⟨fun _ _ => rfl⟩

instance not {test : Token → Bool} [LayoutFree test] : LayoutFree fun t => !test t :=
  ⟨fun t layout => by rw [eq (f := test)]⟩

instance and {left right : Token → Bool} [LayoutFree left] [LayoutFree right] :
    LayoutFree fun t => left t && right t :=
  ⟨fun t layout => by rw [eq (f := left), eq (f := right)]⟩

instance or {left right : Token → Bool} [LayoutFree left] [LayoutFree right] :
    LayoutFree fun t => left t || right t :=
  ⟨fun t layout => by rw [eq (f := left), eq (f := right)]⟩

end LayoutFree

theorem SourcePair.Ahead.all_take_eq {P : SourcePair} {ts ts' : List Token} (same : P.Ahead ts ts')
    (n : Nat) (test : Token → Bool) [LayoutFree test] :
    (ts.take n).all test = (ts'.take n).all test := by
  induction n generalizing ts ts' with
  | zero => rfl
  | succ n ih =>
    cases same.view with
    | nil => rfl
    | cons t layout more => simp [LayoutFree.eq (f := test), ih more]

/-- A test of the tokens ahead that does not depend on the layout. -/
class SeesAlike (test : List Token → Bool) : Prop where
  eq : ∀ {P : SourcePair} {ts ts' : List Token}, P.Ahead ts ts' → test ts = test ts'

namespace SeesAlike

instance head (test : Token → Bool) [LayoutFree test] : SeesAlike fun ts => ts.head?.any test where
  eq same := by
    cases same.view with
    | nil => rfl
    | cons t layout _ => exact (LayoutFree.eq (f := test) t layout).symm

instance const (b : Bool) : SeesAlike fun _ => b := ⟨fun _ => rfl⟩

instance and {left right : List Token → Bool} [hl : SeesAlike left] [hr : SeesAlike right] :
    SeesAlike fun ts => left ts && right ts :=
  ⟨fun same => by rw [hl.eq same, hr.eq same]⟩

instance or {left right : List Token → Bool} [hl : SeesAlike left] [hr : SeesAlike right] :
    SeesAlike fun ts => left ts || right ts :=
  ⟨fun same => by rw [hl.eq same, hr.eq same]⟩

end SeesAlike

theorem isEmpty_eq_of_forall₂ {α : Type} {R : α → α → Prop} {as as' : List α}
    (h : List.Forall₂ R as as') : as.isEmpty = as'.isEmpty := by
  cases h <;> rfl

theorem isSome_eq_of_rel {α : Type} {R : α → α → Prop} {o o' : Option α}
    (h : Option.Rel R o o') : o.isSome = o'.isSome := by
  cases h <;> rfl

namespace Parser

variable {α β : Type}

theorem run_ahead_bind (f : List Token → Parser α) (ts : List Token) :
    run (ahead >>= f) ts = run (f ts) ts := by
  have looked : run ahead ts = some ⟨ts, false, 0, ts⟩ := rfl
  rw [run_bind, looked]
  cases h : run (f ts) ts <;> simp [h]

theorem run_satisfy_cons (test : Token → Bool) (t : Token) (rest : List Token) :
    run (satisfy test) (t :: rest) = if test t then some ⟨t, false, 1, rest⟩ else none := by
  by_cases passes : test t <;> simp [run, satisfy, passes]

theorem run_symbol_cons (text : String) (t : Token) (rest : List Token) :
    run (symbol text) (t :: rest)
      = if t.isSymbol text then some ⟨(), false, 1, rest⟩ else none := by
  rw [symbol, run_bind, run_satisfy_cons]
  split <;> rfl

theorem run_nextIsSymbol (text : String) (ts : List Token) :
    run (nextIsSymbol text) ts = some ⟨ts.head?.any (·.isSymbol text), false, 0, ts⟩ :=
  rfl

theorem run_withText (p : Parser α) (ts : List Token) :
    run (withText p) ts = (run p ts).map fun s =>
      ⟨(s.value, Token.textOf (ts.take s.taken)), s.tests, s.taken, s.rest⟩ :=
  rfl

/-! ## Agreement -/

/-- At two places, two parsers both fail, or they take the same number of tokens and the values
that they read, and this number, are related. -/
inductive AgreesAt (R : α → α → Nat → Prop) (p p' : Parser α) (ts ts' : List Token) : Prop
  | neither (left : p.run ts = none) (right : p'.run ts' = none)
  | both (a a' : α) (tests : Bool) (n : Nat)
      (left : p.run ts = some ⟨a, tests, n, ts.drop n⟩)
      (right : p'.run ts' = some ⟨a', tests, n, ts'.drop n⟩) (related : R a a' n)

/-- Two parsers agree at every place of two sources with the same tokens. -/
def Agree (P : SourcePair) (R : α → α → Prop) (p p' : Parser α) : Prop :=
  ∀ ts ts', P.Ahead ts ts' → AgreesAt (fun a a' _ => R a a') p p' ts ts'

namespace AgreesAt

variable {R : α → α → Nat → Prop} {p p' : Parser α} {P : SourcePair} {ts ts' : List Token}

theorem mono {S : α → α → Nat → Prop} (h : AgreesAt R p p' ts ts')
    (weaker : ∀ a a' n, R a a' n → S a a' n) : AgreesAt S p p' ts ts' := by
  cases h with
  | neither left right => exact .neither left right
  | both a a' tests n left right related =>
    exact .both a a' tests n left right (weaker a a' n related)

theorem pure {a a' : α} (related : R a a' 0) :
    AgreesAt R (pure a) (pure a') ts ts' :=
  .both a a' false 0 rfl rfl related

theorem bind {S : β → β → Nat → Prop} {f f' : α → Parser β} (first : AgreesAt R p p' ts ts')
    (later : ∀ a a' n, R a a' n →
      AgreesAt (fun b b' k => S b b' (n + k)) (f a) (f' a') (ts.drop n) (ts'.drop n)) :
    AgreesAt S (p >>= f) (p' >>= f') ts ts' := by
  cases first with
  | neither left right => exact .neither (by simp [run_bind, left]) (by simp [run_bind, right])
  | both a a' tests n left right related =>
    cases later a a' n related with
    | neither left' right' =>
      exact .neither (by simp [run_bind, left, left']) (by simp [run_bind, right, right'])
    | both b b' tests' k left' right' related' =>
      exact .both b b' (tests || tests') (n + k) (by simp [run_bind, left, left'])
        (by simp [run_bind, right, right']) related'

theorem ahead_bind {f f' : List Token → Parser α} (h : AgreesAt R (f ts) (f' ts') ts ts') :
    AgreesAt R (ahead >>= f) (ahead >>= f') ts ts' := by
  cases h with
  | neither left right =>
    exact .neither ((run_ahead_bind f ts).trans left) ((run_ahead_bind f' ts').trans right)
  | both a a' tests n left right related =>
    exact .both a a' tests n ((run_ahead_bind f ts).trans left)
      ((run_ahead_bind f' ts').trans right) related

theorem of_ahead {f f' : List Token → Parser α}
    (h : AgreesAt R (ahead >>= f) (ahead >>= f') ts ts') : AgreesAt R (f ts) (f' ts') ts ts' := by
  cases h with
  | neither left right =>
    exact .neither (run_ahead_bind f ts ▸ left) (run_ahead_bind f' ts' ▸ right)
  | both a a' tests n left right related =>
    exact .both a a' tests n (run_ahead_bind f ts ▸ left) (run_ahead_bind f' ts' ▸ right) related

theorem orElse {q q' : Unit → Parser α} (first : AgreesAt R p p' ts ts')
    (second : AgreesAt R (q ()) (q' ()) ts ts') :
    AgreesAt R (orElse p q) (orElse p' q') ts ts' := by
  cases first with
  | neither left right =>
    cases second with
    | neither left' right' =>
      exact .neither (by simp [run_orElse, left, left']) (by simp [run_orElse, right, right'])
    | both a a' tests n left' right' related =>
      exact .both a a' tests n (by simp [run_orElse, left, left'])
        (by simp [run_orElse, right, right']) related
  | both a a' tests n left right related =>
    exact .both a a' tests n (by simp [run_orElse, left]) (by simp [run_orElse, right]) related

theorem optional {R : α → α → Prop} (h : AgreesAt (fun a a' _ => R a a') p p' ts ts') :
    AgreesAt (fun o o' _ => Option.Rel R o o') (optional p) (optional p') ts ts' :=
  .orElse (h.bind fun _ _ _ related => .pure (.some related)) (.pure .none)

theorem nextIs_bind {S : β → β → Nat → Prop} {f f' : Bool → Parser β} (test : Token → Bool)
    [LayoutFree test] (same : P.Ahead ts ts')
    (later : ∀ next, AgreesAt S (f next) (f' next) ts ts') :
    AgreesAt S (nextIs test >>= f) (nextIs test >>= f') ts ts' := by
  have looked : AgreesAt (fun next next' n => next = next' ∧ n = 0) (nextIs test) (nextIs test)
      ts ts' :=
    .both _ _ false 0 rfl rfl ⟨(SeesAlike.head test).eq same, rfl⟩
  refine looked.bind ?_
  rintro next _ _ ⟨rfl, rfl⟩
  simpa using later next

/-- Taking a token agrees if the test does not see the layout at this place. -/
theorem satisfy_of {test : Token → Bool} {before : List Token} (same : P.At before ts ts')
    (unseen : ∀ t layout rest rest', ts = t :: rest → ts' = t.relaid layout :: rest' →
      test (t.relaid layout) = test t) :
    AgreesAt (fun t t' n => n = 1 ∧ test t = true ∧ ∃ layout rest rest', t' = t.relaid layout ∧
      ts = t :: rest ∧ ts' = t' :: rest' ∧ P.At (t :: before) rest rest')
      (satisfy test) (satisfy test) ts ts' := by
  cases ts with
  | nil =>
    obtain rfl := same.eq_nil
    exact .neither rfl rfl
  | cons t rest =>
    obtain ⟨layout, rest', rfl, -, -, more⟩ := same.cons_inv
    have test_eq := unseen t layout rest rest' rfl rfl
    by_cases passes : test t
    · refine .both t (t.relaid layout) false 1 ?_ ?_
        ⟨rfl, passes, layout, rest, rest', rfl, rfl, rfl, more⟩
      · simp [run_satisfy_cons, passes]
      · simp [run_satisfy_cons, test_eq, passes]
    · exact .neither (by simp [run_satisfy_cons, passes])
        (by simp [run_satisfy_cons, test_eq, passes])

theorem satisfy (test : Token → Bool) [LayoutFree test] {before : List Token}
    (same : P.At before ts ts') :
    AgreesAt (fun t t' n => n = 1 ∧ test t = true ∧ ∃ layout rest rest', t' = t.relaid layout ∧
      ts = t :: rest ∧ ts' = t' :: rest' ∧ P.At (t :: before) rest rest')
      (satisfy test) (satisfy test) ts ts' :=
  satisfy_of same fun t layout _ _ _ _ => LayoutFree.eq t layout

theorem withText (h : AgreesAt R p p' ts ts') :
    AgreesAt (fun x x' n => R x.1 x'.1 n ∧ x.2 = Token.textOf (ts.take n) ∧
      x'.2 = Token.textOf (ts'.take n)) (withText p) (withText p') ts ts' := by
  cases h with
  | neither left right =>
    exact .neither (by simp [run_withText, left]) (by simp [run_withText, right])
  | both a a' tests n left right related =>
    exact .both (a, Token.textOf (ts.take n)) (a', Token.textOf (ts'.take n)) tests n
      (by simp [run_withText, left]) (by simp [run_withText, right]) ⟨related, rfl, rfl⟩

/-- Agreement behind a token that passes a test. -/
theorem take_bind {S : β → β → Nat → Prop} {f f' : α → Parser β} (value : Token → α)
    (test : Token → Bool) [LayoutFree test] {before : List Token} (same : P.At before ts ts')
    (later : ∀ t layout rest rest', test t = true → ts = t :: rest →
      ts' = t.relaid layout :: rest' → P.At (t :: before) rest rest' →
      AgreesAt (fun b b' n => S b b' (1 + n)) (f (value t)) (f' (value (t.relaid layout)))
        rest rest') :
    AgreesAt S ((Parser.satisfy test >>= fun t => Pure.pure (value t)) >>= f)
      ((Parser.satisfy test >>= fun t => Pure.pure (value t)) >>= f') ts ts' := by
  have values : AgreesAt (fun a a' n => n = 1 ∧ ∃ t layout rest rest', test t = true ∧
      a = value t ∧ a' = value (t.relaid layout) ∧ ts = t :: rest ∧
      ts' = t.relaid layout :: rest' ∧ P.At (t :: before) rest rest')
      (Parser.satisfy test >>= fun t => Pure.pure (value t))
      (Parser.satisfy test >>= fun t => Pure.pure (value t)) ts ts' := by
    refine (satisfy test same).bind ?_
    rintro t _ _ ⟨rfl, passes, layout, rest, rest', rfl, eq, eq', more⟩
    exact .pure ⟨rfl, t, layout, rest, rest', passes, rfl, rfl, eq, eq', more⟩
  refine values.bind ?_
  rintro _ _ _ ⟨rfl, t, layout, rest, rest', passes, rfl, rfl, rfl, rfl, more⟩
  exact later t layout rest rest' passes rfl rfl more

theorem symbol_bind {S : β → β → Nat → Prop} {q q' : Parser β} {before : List Token}
    (text : String) (same : P.At before ts ts')
    (later : ∀ t layout rest rest', t.isSymbol text = true → ts = t :: rest →
      ts' = t.relaid layout :: rest' → P.At (t :: before) rest rest' →
      AgreesAt (fun b b' n => S b b' (1 + n)) q q' rest rest') :
    AgreesAt S (symbol text >>= fun _ => q) (symbol text >>= fun _ => q') ts ts' :=
  take_bind (fun _ => ()) (fun t => t.isSymbol text) same later

theorem keyword_bind {S : β → β → Nat → Prop} {q q' : Parser β} {before : List Token}
    (text : String) (same : P.At before ts ts')
    (later : ∀ t layout rest rest', t.isWordOf text = true → ts = t :: rest →
      ts' = t.relaid layout :: rest' → P.At (t :: before) rest rest' →
      AgreesAt (fun b b' n => S b b' (1 + n)) q q' rest rest') :
    AgreesAt S (keyword text >>= fun _ => q) (keyword text >>= fun _ => q') ts ts' :=
  take_bind (fun _ => ()) (fun t => t.isWordOf text) same later

theorem wordExcept_bind {S : β → β → Nat → Prop} {f f' : String → Parser β} {before : List Token}
    (taken : List String) (same : P.At before ts ts')
    (later : ∀ t layout rest rest', t.isWord = true → ts = t :: rest →
      ts' = t.relaid layout :: rest' → P.At (t :: before) rest rest' →
      AgreesAt (fun b b' n => S b b' (1 + n)) (f t.text) (f' t.text) rest rest') :
    AgreesAt S (wordExcept taken >>= f) (wordExcept taken >>= f') ts ts' :=
  take_bind Token.text (fun t => t.isWord && !taken.contains t.text) same
    fun t layout rest rest' passes => later t layout rest rest' ((Bool.and_eq_true _ _).mp passes).1

end AgreesAt

/-! ## Repetition -/

def consSuccess (s : Success α) (more : Success (List α)) : Success (List α) :=
  ⟨s.value :: more.value, s.tests || more.tests, s.taken + more.taken, more.rest⟩

theorem success?_consReply (s : Success α) (reach : Nat) (later : Reply (List α)) :
    (consReply s reach later).success? = later.success?.map (consSuccess s) := by
  simp only [consReply, Success.andThen, Option.map_map]
  rfl

theorem run_many (p : Parser α) (ts : List Token) :
    run (many p) ts = match run p ts with
      | none => some ⟨[], false, 0, ts⟩
      | some s =>
        if s.rest.length < ts.length then (run (many p) s.rest).map (consSuccess s)
        else some ⟨[], false, 0, ts⟩ := by
  rw [run, many, run]
  cases p ts with
  | mk success? reach =>
    cases success? with
    | none => rfl
    | some s =>
      by_cases shorter : s.rest.length < ts.length
      · simp [shorter, success?_consReply, run]
      · simp [shorter]

theorem run_upTo_cons (close : String) (p : Parser α) (t : Token) (rest : List Token) :
    run (upTo close p) (t :: rest) =
      if t.isSymbol close then some ⟨[], false, 1, rest⟩
      else (run p (t :: rest)).bind fun s =>
        if s.rest.length < (t :: rest).length then (run (upTo close p) s.rest).map (consSuccess s)
        else none := by
  rw [run, upTo]
  by_cases closes : t.isSymbol close
  · rw [if_pos closes, if_pos closes]
  rw [if_neg closes, if_neg closes, run]
  cases p (t :: rest) with
  | mk success? reach =>
    cases success? with
    | none => rfl
    | some s =>
      by_cases shorter : s.rest.length < (t :: rest).length
      · rw [Option.bind_some, if_pos shorter, run, ← success?_consReply s reach]
        simp only [dif_pos shorter]
      · rw [Option.bind_some, if_neg shorter]
        simp only [dif_neg shorter]

theorem run_toEnd_nil (p : Parser α) : run (toEnd p) [] = some ⟨[], false, 0, []⟩ := by
  rw [run, toEnd, if_pos List.isEmpty_nil]

theorem run_toEnd_cons (p : Parser α) (t : Token) (rest : List Token) :
    run (toEnd p) (t :: rest) = (run p (t :: rest)).bind fun s =>
      if s.rest.length < (t :: rest).length then (run (toEnd p) s.rest).map (consSuccess s)
      else none := by
  rw [run, toEnd, if_neg (by simp), run]
  cases p (t :: rest) with
  | mk success? reach =>
    cases success? with
    | none => rfl
    | some s =>
      by_cases shorter : s.rest.length < (t :: rest).length
      · rw [Option.bind_some, if_pos shorter, run, ← success?_consReply s reach]
        simp only [dif_pos shorter]
      · rw [Option.bind_some, if_neg shorter]
        simp only [dif_neg shorter]

namespace AgreesAt

variable {R : α → α → Prop} {p p' : Parser α} {ts ts' : List Token}

/-- One more round of a repetition. -/
theorem cons {S : List α → List α → Nat → Prop} {loop loop' : Parser (List α)} (a a' : α)
    (tests : Bool) (n : Nat)
    (left : loop.run ts = (loop.run (ts.drop n)).map (consSuccess ⟨a, tests, n, ts.drop n⟩))
    (right : loop'.run ts' = (loop'.run (ts'.drop n)).map (consSuccess ⟨a', tests, n, ts'.drop n⟩))
    (later : AgreesAt (fun as as' k => S (a :: as) (a' :: as') (n + k))
      loop loop' (ts.drop n) (ts'.drop n)) :
    AgreesAt S loop loop' ts ts' := by
  cases later with
  | neither left' right' => exact .neither (by simp [left, left']) (by simp [right, right'])
  | both as as' tests' k left' right' related =>
    exact .both (a :: as) (a' :: as') (tests || tests') (n + k)
      (by simp [left, left', consSuccess]) (by simp [right, right', consSuccess]) related

/-- Reading as often as possible agrees if each round agrees. `I` is what is known of the places
where a round begins. -/
theorem many {I : Nat → Prop} (length_eq : ts.length = ts'.length) (start : I 0)
    (step : ∀ n, I n →
      AgreesAt (fun a a' k => R a a' ∧ I (n + k)) p p' (ts.drop n) (ts'.drop n)) :
    AgreesAt (fun as as' k => List.Forall₂ R as as' ∧ I k) p.many p'.many ts ts' := by
  suffices rounds : ∀ m n, (ts.drop n).length = m → I n →
      AgreesAt (fun as as' k => List.Forall₂ R as as' ∧ I (n + k))
        p.many p'.many (ts.drop n) (ts'.drop n) by
    simpa using rounds _ 0 rfl start
  -- On the number of tokens that are left: a round that takes none is not counted.
  intro m
  induction m using Nat.strongRecOn with
  | ind m ih =>
    intro n ahead_eq known
    have stop : List.Forall₂ R [] [] ∧ I (n + 0) := ⟨.nil, known⟩
    cases step n known with
    | neither left right =>
      exact .both [] [] false 0 (by simp [run_many, left]) (by simp [run_many, right]) stop
    | both a a' tests k left right related =>
      by_cases shorter : ((ts.drop n).drop k).length < (ts.drop n).length
      · refine cons a a' tests k ?_ ?_ ?_
        · rw [run_many, left]
          exact if_pos shorter
        · rw [run_many, right]
          exact if_pos (by simpa [length_eq] using shorter)
        · simp only [List.drop_drop] at shorter ⊢
          refine (ih _ (ahead_eq ▸ shorter) (n + k) rfl related.2).mono fun as as' j h => ?_
          exact ⟨.cons related.1 h.1, by rw [← Nat.add_assoc]; exact h.2⟩
      · refine .both [] [] false 0 ?_ ?_ stop
        · rw [run_many, left]
          exact if_neg shorter
        · rw [run_many, right]
          exact if_neg (by simpa [length_eq] using shorter)

/-- A repetition that must go on agrees if the next round and what follows it do. -/
theorem round {loop loop' : Parser (List α)}
    (left : loop.run ts = (p.run ts).bind fun s =>
      if s.rest.length < ts.length then (loop.run s.rest).map (consSuccess s) else none)
    (right : loop'.run ts' = (p'.run ts').bind fun s =>
      if s.rest.length < ts'.length then (loop'.run s.rest).map (consSuccess s) else none)
    (length_eq : ts.length = ts'.length) (item : AgreesAt (fun a a' _ => R a a') p p' ts ts')
    (later : ∀ n, (ts.drop n).length < ts.length →
      AgreesAt (fun as as' _ => List.Forall₂ R as as') loop loop' (ts.drop n) (ts'.drop n)) :
    AgreesAt (fun as as' _ => List.Forall₂ R as as') loop loop' ts ts' := by
  cases item with
  | neither left' right' => exact .neither (by simp [left, left']) (by simp [right, right'])
  | both a a' tests n left' right' related =>
    by_cases shorter : (ts.drop n).length < ts.length
    · refine cons a a' tests n ?_ ?_ ((later n shorter).mono fun _ _ _ h => .cons related h)
      · rw [left, left']
        exact if_pos shorter
      · rw [right, right']
        exact if_pos (by simpa [length_eq] using shorter)
    · refine .neither ?_ ?_
      · rw [left, left']
        exact if_neg shorter
      · rw [right, right']
        exact if_neg (by simpa [length_eq] using shorter)

end AgreesAt

namespace Agree

variable {P : SourcePair} {R : α → α → Prop} {p p' : Parser α}

theorem mono {S : α → α → Prop} (h : Agree P R p p') (weaker : ∀ a a', R a a' → S a a') :
    Agree P S p p' :=
  fun ts ts' same => (h ts ts' same).mono fun a a' _ => weaker a a'

theorem pure {a a' : α} (related : R a a') : Agree P R (pure a) (pure a') :=
  fun _ _ _ => .pure related

theorem fail : Agree P R fail fail := fun _ _ _ => .neither rfl rfl

theorem bind {S : β → β → Prop} {f f' : α → Parser β} (first : Agree P R p p')
    (later : ∀ a a', R a a' → Agree P S (f a) (f' a')) : Agree P S (p >>= f) (p' >>= f') :=
  fun ts ts' same => (first ts ts' same).bind fun a a' n related =>
    later a a' related _ _ (same.drop n)

theorem seq {q q' : Parser β} {S : β → β → Prop} (first : Agree P R p p') (later : Agree P S q q') :
    Agree P S (p >>= fun _ => q) (p' >>= fun _ => q') :=
  first.bind fun _ _ _ => later

theorem orElse {q q' : Unit → Parser α} (first : Agree P R p p')
    (second : Agree P R (q ()) (q' ())) : Agree P R (orElse p q) (orElse p' q') :=
  fun ts ts' same => (first ts ts' same).orElse (second ts ts' same)

theorem ite {q q' : Parser α} {c : Prop} [Decidable c] (first : Agree P R p p')
    (second : Agree P R q q') : Agree P R (if c then p else q) (if c then p' else q') := by
  split
  · exact first
  · exact second

/-- Reading on unless something is there. -/
theorem guard {c : Parser Bool} {f f' : Unit → Parser α} (condition : Agree P Eq c c)
    (later : Agree P R (f ()) (f' ())) :
    Agree P R (c >>= fun b => if b = true then Parser.fail >>= f else f ())
      (c >>= fun b => if b = true then Parser.fail >>= f' else f' ()) := by
  refine condition.bind ?_
  rintro b _ rfl
  exact .ite ((fail (R := Eq)).bind fun _ _ _ => later) later

/-- A decision by the tokens ahead. -/
theorem ahead_bind {f f' : List Token → Parser α}
    (h : ∀ ts ts', P.Ahead ts ts' →
      AgreesAt (fun a a' _ => R a a') (f ts) (f' ts') ts ts') :
    Agree P R (ahead >>= f) (ahead >>= f') :=
  fun ts ts' same => .ahead_bind (h ts ts' same)

theorem satisfy (test : Token → Bool) [LayoutFree test] :
    Agree P (fun t t' => t.text = t'.text) (satisfy test) (satisfy test) := by
  rintro ts ts' ⟨before, same⟩
  refine (AgreesAt.satisfy test same).mono ?_
  rintro t _ _ ⟨-, -, layout, -, -, rfl, -⟩
  rfl

theorem many (h : Agree P R p p') : Agree P (List.Forall₂ R) (many p) (many p') := by
  intro ts ts' same
  have every : AgreesAt (fun as as' _ => List.Forall₂ R as as' ∧ True) p.many p'.many ts ts' :=
    .many same.length_eq trivial fun n _ =>
      (h _ _ (same.drop n)).mono fun _ _ _ related => ⟨related, trivial⟩
  exact every.mono fun _ _ _ related => related.1

theorem upTo (close : String) (h : Agree P R p p') :
    Agree P (List.Forall₂ R) (upTo close p) (upTo close p') := by
  intro ts
  induction length_eq : ts.length using Nat.strongRecOn generalizing ts with
  | ind m ih =>
    intro ts' same
    have item := h ts ts' same
    have later (n : Nat) (shorter : (ts.drop n).length < ts.length) :=
      ih _ (length_eq ▸ shorter) (ts.drop n) rfl _ (same.drop n)
    have lengths := same.length_eq
    cases same.view with
    | nil => exact .neither (by rw [run, Parser.upTo]) (by rw [run, Parser.upTo])
    | cons t layout more =>
      by_cases closes : t.isSymbol close
      · exact .both [] [] false 1 ((run_upTo_cons ..).trans (if_pos closes))
          ((run_upTo_cons ..).trans (if_pos closes)) .nil
      · exact .round ((run_upTo_cons ..).trans (if_neg closes))
          ((run_upTo_cons ..).trans (if_neg closes)) lengths item later

theorem toEnd (h : Agree P R p p') : Agree P (List.Forall₂ R) (toEnd p) (toEnd p') := by
  intro ts
  induction length_eq : ts.length using Nat.strongRecOn generalizing ts with
  | ind m ih =>
    intro ts' same
    have item := h ts ts' same
    have later (n : Nat) (shorter : (ts.drop n).length < ts.length) :=
      ih _ (length_eq ▸ shorter) (ts.drop n) rfl _ (same.drop n)
    have lengths := same.length_eq
    cases same.view with
    | nil => exact .both [] [] false 0 (run_toEnd_nil p) (run_toEnd_nil p') .nil
    | cons t layout more =>
      exact .round (run_toEnd_cons ..) (run_toEnd_cons ..) lengths item later

theorem optional (h : Agree P R p p') : Agree P (Option.Rel R) (optional p) (optional p') :=
  fun ts ts' same => (h ts ts' same).optional

theorem note (tests : Bool) : Agree P Eq (note tests) (note tests) :=
  fun _ _ _ => .both () () tests 0 rfl rfl rfl

theorem nextIs (test : Token → Bool) [LayoutFree test] : Agree P Eq (nextIs test) (nextIs test) :=
  .ahead_bind fun _ _ same => .pure ((SeesAlike.head test).eq same)

theorem when (text : String) (h : Agree P R p p') :
    Agree P (Option.Rel R) (when text p) (when text p') := by
  refine (nextIs _).bind ?_
  rintro next _ rfl
  exact .ite (h.bind fun _ _ related => .pure (.some related)) (.pure .none)

theorem whenWord (text : String) (h : Agree P R p p') :
    Agree P (Option.Rel R) (whenWord text p) (whenWord text p') := by
  refine (nextIs _).bind ?_
  rintro next _ rfl
  exact .ite (h.bind fun _ _ related => .pure (.some related)) (.pure .none)

theorem symbol (text : String) : Agree P Eq (symbol text) (symbol text) :=
  (satisfy fun t => t.isSymbol text).bind fun _ _ _ => .pure rfl

theorem keyword (text : String) : Agree P Eq (keyword text) (keyword text) :=
  (satisfy fun t => t.isWordOf text).bind fun _ _ _ => .pure rfl

theorem wordExcept (taken : List String) : Agree P Eq (wordExcept taken) (wordExcept taken) :=
  (satisfy fun t => t.isWord && !taken.contains t.text).bind fun _ _ texts_eq => .pure texts_eq

theorem separated (separator : String) (h : Agree P R p p') :
    Agree P (List.Forall₂ R) (separated separator p) (separated separator p') :=
  h.bind fun _ _ first => (((symbol separator).bind fun _ _ _ => h).many).bind fun _ _ more =>
    .pure (.cons first more)

theorem listed (opening closing : String) (h : Agree P R p p') :
    Agree P (List.Forall₂ R) (listed opening closing p) (listed opening closing p') := by
  refine (symbol opening).bind fun _ _ _ => (nextIs fun t => t.isSymbol closing).bind ?_
  rintro closes _ rfl
  exact .ite ((symbol closing).bind fun _ _ _ => .pure .nil)
    ((h.separated ",").bind fun _ _ items => (symbol closing).bind fun _ _ _ => .pure items)

end Agree

/-! ## Parsers that agree with themselves -/

/-- From two sources with the same tokens a parser takes the same tokens, and the values that it
reads are related. -/
class Alike (P : SourcePair) (R : α → α → Prop) (p : Parser α) : Prop where
  agree : Agree P R p p

abbrev ReadsAlike (P : SourcePair) (p : Parser α) : Prop := Alike P Eq p

abbrev TakesAlike (P : SourcePair) (p : Parser α) : Prop := Alike P (fun _ _ => True) p

theorem Alike.agreesAt {P : SourcePair} {R : α → α → Prop} {p : Parser α} [h : Alike P R p]
    {ts ts' : List Token} (same : P.Ahead ts ts') : AgreesAt (fun a a' _ => R a a') p p ts ts' :=
  h.agree ts ts' same

theorem Agree.takesAlike {P : SourcePair} {R : α → α → Prop} {p : Parser α} (h : Agree P R p p) :
    TakesAlike P p :=
  ⟨h.mono fun _ _ _ => trivial⟩

namespace Alike

variable {P : SourcePair} {R : α → α → Prop} {S : β → β → Prop}

instance (priority := low) takes {p : Parser α} [h : ReadsAlike P p] : TakesAlike P p :=
  h.agree.takesAlike

/-! ### Sequence and choice -/

instance pure (a : α) [refl : Std.Refl R] : Alike P R (pure a) := ⟨.pure (refl.refl a)⟩

instance fail : Alike P R fail := ⟨.fail⟩

/-- What is read first is not used. -/
instance seq {p : Parser α} {q : Parser β} [hp : TakesAlike P p] [hq : Alike P S q] :
    Alike P S (p >>= fun _ => q) :=
  ⟨hp.agree.bind fun _ _ _ => hq.agree⟩

instance (priority := low) bind {p : Parser α} {f : α → Parser β} [hp : ReadsAlike P p]
    [hf : ∀ a, Alike P S (f a)] : Alike P S (p >>= f) := by
  refine ⟨hp.agree.bind ?_⟩
  rintro a _ rfl
  exact (hf a).agree

instance orElse {p : Parser α} {q : Unit → Parser α} [hp : Alike P R p] [hq : Alike P R (q ())] :
    Alike P R (orElse p q) :=
  ⟨.orElse hp.agree hq.agree⟩

instance ite {p q : Parser α} {c : Prop} [Decidable c] [hp : Alike P R p] [hq : Alike P R q] :
    Alike P R (if c then p else q) :=
  ⟨.ite hp.agree hq.agree⟩

/-- A decision by the tokens ahead. -/
instance ahead_ite {test : List Token → Bool} {f f' : List Token → Parser α} [hc : SeesAlike test]
    [hp : Alike P R (ahead >>= f)] [hq : Alike P R (ahead >>= f')] :
    Alike P R (ahead >>= fun ts => if test ts = true then f ts else f' ts) := by
  refine ⟨.ahead_bind fun ts ts' same => ?_⟩
  rw [hc.eq same]
  split
  · exact (hp.agree ts ts' same).of_ahead
  · exact (hq.agree ts ts' same).of_ahead

/-! ### Single tokens -/

instance ahead : TakesAlike P ahead := ⟨fun ts ts' _ => .both ts ts' false 0 rfl rfl trivial⟩

instance satisfy (test : Token → Bool) [LayoutFree test] : TakesAlike P (satisfy test) :=
  (Agree.satisfy test).takesAlike

instance symbol (text : String) : ReadsAlike P (symbol text) := ⟨.symbol text⟩

instance keyword (text : String) : ReadsAlike P (keyword text) := ⟨.keyword text⟩

instance wordExcept (taken : List String) : ReadsAlike P (wordExcept taken) := ⟨.wordExcept taken⟩

instance word : ReadsAlike P word := wordExcept []

instance nextIs (test : Token → Bool) [LayoutFree test] : ReadsAlike P (nextIs test) :=
  ⟨.nextIs test⟩

instance nextIsSymbol (text : String) : ReadsAlike P (nextIsSymbol text) :=
  nextIs fun t => t.isSymbol text

instance nextIsWord (text : String) : ReadsAlike P (nextIsWord text) :=
  nextIs fun t => t.isWordOf text

instance note (tests : Bool) : ReadsAlike P (note tests) := ⟨.note tests⟩

/-! ### Repetition -/

section Reads

variable {p : Parser α} [h : ReadsAlike P p]

instance optional_reads : ReadsAlike P (optional p) :=
  inferInstanceAs (Alike _ _ (Parser.orElse _ _))

instance when_reads (text : String) : ReadsAlike P (when text p) :=
  inferInstanceAs (Alike _ _ (_ >>= _))

instance whenWord_reads (text : String) : ReadsAlike P (whenWord text p) :=
  inferInstanceAs (Alike _ _ (_ >>= _))

instance many_reads : ReadsAlike P (many p) :=
  ⟨h.agree.many.mono fun _ _ => (List.forall₂_eq_eq_eq ▸ ·)⟩

end Reads

section Takes

variable {p : Parser α} [h : TakesAlike P p]

instance optional_takes : TakesAlike P (optional p) := h.agree.optional.takesAlike

instance when_takes (text : String) : TakesAlike P (when text p) :=
  (h.agree.when text).takesAlike

instance whenWord_takes (text : String) : TakesAlike P (whenWord text p) :=
  (h.agree.whenWord text).takesAlike

instance many_takes : TakesAlike P (many p) := h.agree.many.takesAlike

instance upTo_takes (close : String) : TakesAlike P (upTo close p) :=
  (h.agree.upTo close).takesAlike

instance separated_takes (separator : String) : TakesAlike P (separated separator p) :=
  (h.agree.separated separator).takesAlike

instance listed_takes (opening closing : String) : TakesAlike P (listed opening closing p) :=
  (h.agree.listed opening closing).takesAlike

instance braced : ReadsAlike P (braced p) := by
  unfold Parser.braced
  infer_instance

end Takes

end Alike

end Parser

end ChangeImpact.Java
