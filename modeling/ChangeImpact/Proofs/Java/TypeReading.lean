import ChangeImpact.Java.Source
import ChangeImpact.Proofs.Java.OutlineRules

/-!
# Reading types

Types of any depth are taken by the grammar, and so are parameters with such types. The layout in
front of closing brackets may be any: brackets in a row are always read one by one, also if
nothing parts them. So what is read here are not the tokens of a type but tokens that are tight
like them.

## Main definitions

* `Token.tight`: a closing bracket without its layout.

## Main statements

* `TypeExpr.takes`, `TypeArgument.takes`, `TypeArguments.exists_takes`: types are taken, by
  induction on types.
* `takes_parameters`: parameters in parentheses are taken.
-/

namespace ChangeImpact.Java

open ChangeImpact.Java.Parser ChangeImpact.Java.Grammar ChangeImpact.Java.Outline

/-! ## Layout of closing brackets -/

/-- A closing bracket without its layout; any other token as it is. -/
def Token.tight (t : Token) : Token := if t.isSymbol ">" then t.relaid [] else t

theorem Token.isSymbol_tight (t : Token) (text : String) :
    t.tight.isSymbol text = t.isSymbol text := by
  unfold tight
  split <;> rfl

theorem Token.eq_of_tight {t u : Token} (h : t.tight = u) (other : u.isSymbol ">" = false) :
    t = u := by
  rw [← h, isSymbol_tight] at other
  rw [← h, tight, if_neg (by simp [other])]

section Tight

variable {us ts : List Token} {t : Token}

theorem eq_of_map_tight (h : us.map Token.tight = ts) (others : ∀ t ∈ ts, t.isSymbol ">" = false) :
    us = ts := by
  subst h
  rw [List.forall_mem_map] at others
  nth_rewrite 1 [← List.map_id us]
  exact List.map_congr_left fun u mem => Token.eq_of_tight rfl (others u mem)

/-- Any other token than a closing bracket is kept with its layout, and so is the same in both. -/
theorem exists_of_map_tight_cons (h : us.map Token.tight = t :: ts)
    (other : t.isSymbol ">" = false) : ∃ vs, us = t :: vs ∧ vs.map Token.tight = ts := by
  obtain ⟨u, vs, rfl, first, rest⟩ := List.map_eq_cons_iff.1 h
  exact ⟨vs, by rw [Token.eq_of_tight first other], rest⟩

/-- The front of tokens that are tight like two lists, of which the first has no bracket. -/
theorem exists_of_map_tight_append {ts' : List Token} (h : us.map Token.tight = ts ++ ts')
    (others : ∀ t ∈ ts, t.isSymbol ">" = false) :
    ∃ vs, us = ts ++ vs ∧ vs.map Token.tight = ts' := by
  obtain ⟨front, back, rfl, first, rest⟩ := List.map_eq_append_iff.1 h
  exact ⟨back, by rw [eq_of_map_tight first others], rest⟩

/-- The back of tokens that are tight like two lists, of which the second has no bracket. -/
theorem exists_of_map_tight_concat {ts' : List Token} (h : us.map Token.tight = ts ++ ts')
    (others : ∀ t ∈ ts', t.isSymbol ">" = false) :
    ∃ vs, us = vs ++ ts' ∧ vs.map Token.tight = ts := by
  obtain ⟨front, back, rfl, first, rest⟩ := List.map_eq_append_iff.1 h
  exact ⟨front, by rw [eq_of_map_tight rest others], first⟩

/-- No bracket closes among words and separators. -/
theorem Token.Tidy.isSymbol_eq_false (tidy : Tidy separators ts) :
    ∀ t ∈ ts, t.isSymbol ">" = false :=
  fun t mem => (tidy.plain t mem).isSymbol_eq_false (by decide)

theorem beginsType_of_tight (h : BeginsType (us.map Token.tight)) : BeginsType us := by
  obtain ⟨text, vs, eq, free, next⟩ := h
  obtain ⟨ws, rfl, rfl⟩ := exists_of_map_tight_cons eq rfl
  refine ⟨text, ws, rfl, free, fun w first => ?_⟩
  have after := next w.tight (by rw [List.head?_map, first, Option.map_some]; rfl)
  exact ⟨w.isSymbol_tight _ ▸ after.parameters, w.isSymbol_tight _ ▸ after.block,
    w.isSymbol_tight _ ▸ after.dash⟩

end Tight

/-! ## Types -/

/-- A dimension or the token that ends the type comes next, and neither continues its name. -/
theorem dimensionTokens_starts (n : Nat) {u : Token} (ends : EndsType u) (rest : List Token) :
    ∃ v vs, dimensionTokens n ++ u :: rest = v :: vs ∧ v.isSymbol "<" = false ∧
      v.isSymbol "." = false := by
  cases n with
  | zero => exact ⟨u, rest, rfl, ends.arguments, ends.dot⟩
  | succ n => exact ⟨_, _, rfl, rfl, rfl⟩

theorem TypeRef.arrays_array (element : TypeRef) (n : Nat) :
    element.array.arrays n = element.arrays (n + 1) := by
  induction n with
  | zero => rfl
  | succ n ih => exact congrArg TypeRef.array ih

/-- An argument is followed by a comma or by the closing bracket. -/
def AfterArgument (t : Token) : Prop := t.isSymbol "," = true ∨ t.isSymbol ">" = true

theorem AfterArgument.exists_eq {t : Token} (h : AfterArgument t) :
    ∃ layout text, t = ⟨layout, .symbol, text⟩ ∧ (text = "," ∨ text = ">") := by
  obtain ⟨layout, kind, text⟩ := t
  simp only [AfterArgument, Token.isSymbol, Bool.and_eq_true, beq_iff_eq] at h
  rcases h with ⟨rfl, rfl⟩ | ⟨rfl, rfl⟩
  · exact ⟨layout, ",", rfl, .inl rfl⟩
  · exact ⟨layout, ">", rfl, .inr rfl⟩

theorem AfterArgument.endsType {t : Token} (h : AfterArgument t) : EndsType t := by
  obtain ⟨layout, text, rfl, rfl | rfl⟩ := h.exists_eq <;> exact ⟨rfl, rfl, rfl, rfl⟩

theorem run_separator_eq_none {p : Parser TypeRef} {u : Token} (closes : u.isSymbol ">" = true)
    (rest : List Token) : run (do symbol ","; p) (u :: rest) = none := by
  apply run_symbol_bind_eq_none
  obtain ⟨layout, text, rfl, rfl | rfl⟩ := AfterArgument.exists_eq (.inr closes)
  · cases closes
  · rfl

/-- A wildcard with a bound. -/
theorem takes_bounded {g : Grammar} {word : String} {us rest : List Token} {bound : TypeExpr}
    (known : word = "extends" ∨ word = "super")
    (spelled : us.map Token.tight = .ofSymbol "?" :: .ofWord word :: bound.tokens)
    (taken : ∀ {vs : List Token}, vs.map Token.tight = bound.tokens →
      Takes (plainType g) (vs ++ dimensionTokens 0) rest (bound.kept.arrays 0) false) :
    Takes (typeArgumentRule g) us rest (.bounded bound.kept) false := by
  obtain ⟨vs, rfl, word⟩ := exists_of_map_tight_cons spelled rfl
  obtain ⟨ws, rfl, inside⟩ := exists_of_map_tight_cons word rfl
  have type := taken inside
  rw [dimensionTokens, List.append_nil] at type
  obtain ⟨text, xs, rfl, -⟩ := beginsType_of_tight (inside ▸ bound.beginsType)
  have limit : Takes (typeRef g) (.ofWord text :: xs) rest bound.kept false :=
    .skip (run_annotations_of_plain g rfl _) type
  refine .skip (run_annotations_of_plain g rfl _) (.nextIs_bind true rfl (.symbol_bind ?_))
  rcases known with rfl | rfl
  · exact .nextIs_bind true rfl (.keyword_bind (limit.bind_nil (.pure _ _)))
  · exact .nextIs_bind false rfl
      (.nextIs_bind true rfl (.keyword_bind (limit.bind_nil (.pure _ _))))

/-- Arguments in brackets are one reference of the grammar to itself deep. -/
theorem takes_typeArguments {depth : Nat} {first last : Token} {more rest : List Token}
    {types : List TypeRef} (opens : first.isSymbol ">" = false) (closes : last.isSymbol ">" = true)
    (listed : Takes (separated "," (typeArgumentRule (ofDepth depth))) (first :: more)
      (last :: rest) types false) :
    Takes (typeArguments (ofDepth (depth + 1))) (.ofSymbol "<" :: (first :: more ++ [last])) rest
      types false :=
  .symbol_bind (.nextIs_bind false (by simpa using opens)
    (.bind listed ((Takes.symbol_of closes _).bind_nil (.pure _ _))))

mutual

/-- A type with further array dimensions is taken by a grammar that may refer to itself as often
as the type has tokens. -/
theorem TypeExpr.takes : (t : TypeExpr) → {depth : Nat} → t.tokens.length ≤ depth → (n : Nat) →
    {us : List Token} → us.map Token.tight = t.tokens → {u : Token} → EndsType u →
    (rest : List Token) → Takes (plainType (ofDepth depth)) (us ++ dimensionTokens n) (u :: rest)
      (t.kept.arrays n) false
  | .primitive p, depth, fits, n, us, spelled, u, ends, rest => by
    rw [TypeExpr.tokens] at spelled
    obtain ⟨vs, rfl, nothing⟩ := exists_of_map_tight_cons spelled rfl
    obtain rfl := List.map_eq_nil_iff.1 nothing
    have isPrimitive : primitiveWords.contains p.text = true := by cases p <;> rfl
    rw [TypeExpr.kept]
    exact takes_plainType_of _ n ends rest (takes_primitive _ isPrimitive _)
  | .named name, depth, fits, n, us, spelled, u, ends, rest => by
    rw [TypeExpr.tokens] at spelled
    obtain rfl := eq_of_map_tight spelled name.tidy_tokens.isSymbol_eq_false
    obtain ⟨v, vs, follows, noAngle, noDot⟩ := dimensionTokens_starts n ends rest
    have noArguments : Takes (optional (typeArguments (ofDepth depth))) []
        (dimensionTokens n ++ u :: rest) none false := by
      rw [follows]
      exact run_optional_of_none (run_typeArguments_eq_none _ (by simpa using noAngle))
    have simple := takes_simpleType _ name noArguments (by simpa [follows] using noDot)
    rw [List.append_nil] at simple
    rw [TypeExpr.kept]
    exact takes_plainType_of _ n ends rest simple
  | .generic base arguments, depth, fits, n, us, spelled, u, ends, rest => by
    rw [TypeExpr.tokens] at spelled fits
    obtain ⟨back, rfl, bracketed⟩ :=
      exists_of_map_tight_append spelled base.tidy_tokens.isSymbol_eq_false
    obtain ⟨inner, rfl, closed⟩ := exists_of_map_tight_cons bracketed rfl
    obtain ⟨args, last, rfl, inside, close⟩ := List.map_eq_append_iff.1 closed
    -- the closing bracket has its layout, so all that is known of it is its text
    obtain ⟨w, rfl, closing⟩ := List.map_eq_singleton_iff.1 close
    have closes : w.isSymbol ">" = true := by
      rw [← w.isSymbol_tight, closing]
      rfl
    obtain ⟨v, vs, follows, -, noDot⟩ := dimensionTokens_starts n ends rest
    obtain ⟨x, xs, first, start⟩ := arguments.tokens_starts
    have noClose : x.isSymbol ">" = false := by
      simp only [Token.isWord, Token.isSymbol, Bool.and_eq_true, beq_iff_eq] at start
      rcases start with word | ⟨kind, text⟩
      · simp [Token.isSymbol, word]
      · simp [Token.isSymbol, text]
    obtain ⟨more, rfl, -⟩ := exists_of_map_tight_cons (inside.trans first) noClose
    cases depth with
    | zero => simp [DottedName.tokens] at fits
    | succ depth =>
      have fitsInside : arguments.tokens.length ≤ depth := by
        simp only [List.length_append, List.length_cons] at fits
        omega
      obtain ⟨front, back, a, as, split, kept, one, others⟩ :=
        arguments.exists_takes fitsInside inside closes (dimensionTokens n ++ u :: rest)
      have listed : Takes (separated "," (typeArgumentRule (ofDepth depth))) (front ++ back)
          (w :: (dimensionTokens n ++ u :: rest)) (a :: as) false :=
        one.bind (others.bind_nil (.pure _ _))
      rw [← split, ← kept] at listed
      have taken := takes_typeArguments noClose closes listed
      rw [TypeExpr.kept]
      exact takes_plainType_of _ n ends rest
        (takes_simpleType _ base taken.optional (by simpa [follows] using noDot))
  | .array element, depth, fits, n, us, spelled, u, ends, rest => by
    rw [TypeExpr.tokens] at spelled fits
    obtain ⟨front, rfl, inside⟩ := exists_of_map_tight_concat spelled (by simp)
    have fitsInside : element.tokens.length ≤ depth := by
      rw [List.length_append] at fits
      omega
    -- the grammar reads all dimensions at once, so these join those behind the type
    rw [TypeExpr.kept, TypeRef.arrays_array, List.append_assoc]
    exact element.takes fitsInside (n + 1) inside ends rest

theorem TypeArgument.takes : (a : TypeArgument) → {depth : Nat} → a.tokens.length ≤ depth →
    {us : List Token} → us.map Token.tight = a.tokens → {u : Token} → AfterArgument u →
    (rest : List Token) → Takes (typeArgumentRule (ofDepth depth)) us (u :: rest) a.kept false
  | .type t, depth, fits, us, spelled, u, after, rest => by
    rw [TypeArgument.tokens] at spelled fits
    have taken := t.takes fits 0 spelled after.endsType rest
    rw [dimensionTokens, List.append_nil] at taken
    obtain ⟨text, vs, rfl, -⟩ := beginsType_of_tight (spelled ▸ t.beginsType)
    rw [TypeArgument.kept]
    exact .skip (run_annotations_of_plain _ rfl _) (.nextIs_bind false rfl taken)
  | .any, depth, fits, us, spelled, u, after, rest => by
    rw [TypeArgument.tokens] at spelled
    obtain rfl := eq_of_map_tight spelled (by simp)
    obtain ⟨layout, text, rfl, -⟩ := after.exists_eq
    rw [TypeArgument.kept]
    refine .skip (run_annotations_of_plain _ rfl _) (.nextIs_bind true rfl (.symbol_bind ?_))
    exact .nextIs_bind false rfl (.nextIs_bind false rfl (.pure _ _))
  | .upper bound, depth, fits, us, spelled, u, after, rest => by
    rw [TypeArgument.tokens] at spelled fits
    rw [List.length_cons, List.length_cons] at fits
    rw [TypeArgument.kept]
    exact takes_bounded (.inl rfl) spelled fun inside =>
      bound.takes (by omega) 0 inside after.endsType rest
  | .lower bound, depth, fits, us, spelled, u, after, rest => by
    rw [TypeArgument.tokens] at spelled fits
    rw [List.length_cons, List.length_cons] at fits
    rw [TypeArgument.kept]
    exact takes_bounded (.inr rfl) spelled fun inside =>
      bound.takes (by omega) 0 inside after.endsType rest

/-- The first of some arguments is taken, and so are the others, each behind its comma. -/
theorem TypeArguments.exists_takes : (as : TypeArguments) → {depth : Nat} →
    as.tokens.length ≤ depth → {us : List Token} → us.map Token.tight = as.tokens →
    {u : Token} → u.isSymbol ">" = true → (rest : List Token) → ∃ front back first more,
      us = front ++ back ∧ as.kept = first :: more ∧
      Takes (typeArgumentRule (ofDepth depth)) front (back ++ u :: rest) first false ∧
      Takes (many (do symbol ","; typeArgumentRule (ofDepth depth))) back (u :: rest) more false
  | .last argument, depth, fits, us, spelled, u, closes, rest => by
    rw [TypeArguments.tokens] at spelled fits
    have taken := argument.takes fits spelled (.inr closes) rest
    refine ⟨us, [], argument.kept, [], by rw [List.append_nil], ?_, taken, .many_nil ?_⟩
    · rw [TypeArguments.kept]
    · exact run_separator_eq_none closes rest
  | .cons argument more, depth, fits, us, spelled, u, closes, rest => by
    rw [TypeArguments.tokens] at spelled fits
    obtain ⟨front, back, rfl, inside, later⟩ := List.map_eq_append_iff.1 spelled
    obtain ⟨vs, rfl, others⟩ := exists_of_map_tight_cons later rfl
    rw [List.length_append, List.length_cons] at fits
    have fitsFirst : argument.tokens.length ≤ depth := by omega
    have fitsMore : more.tokens.length ≤ depth := by omega
    obtain ⟨next, last, a, as, rfl, kept, second, behind⟩ :=
      more.exists_takes fitsMore others closes rest
    have taken : Takes (typeArgumentRule (ofDepth depth)) front
        (.ofSymbol "," :: (next ++ last ++ u :: rest)) argument.kept false :=
      argument.takes fitsFirst inside (.inl rfl) _
    refine ⟨front, .ofSymbol "," :: next ++ last, argument.kept, a :: as, rfl, ?_, taken,
      Takes.many_cons (List.cons_ne_nil _ _) second.symbol_bind behind⟩
    rw [TypeArguments.kept, kept]

end

/-- In this form the rules of members use a type without knowing how it is made up. -/
theorem TypeExpr.readsAsType (t : TypeExpr) {depth : Nat} (fits : t.tokens.length ≤ depth)
    {us : List Token} (spelled : us.map Token.tight = t.tokens) :
    ReadsAsType (ofDepth depth) us t.kept where
  begins := beginsType_of_tight (spelled ▸ t.beginsType)
  taken u rest ends := by
    have taken := t.takes fits 0 spelled ends rest
    rwa [dimensionTokens, List.append_nil] at taken

/-! ## Parameters -/

/-- Tokens of items one after the other are parted into the tokens of each. -/
theorem exists_of_map_eq_flatMap {α β γ : Type} {f : α → β} {tokens : γ → List β} {us : List α}
    {xs : List γ} (h : us.map f = xs.flatMap tokens) :
    ∃ items : List (γ × List α), xs = items.map Prod.fst ∧ us = items.flatMap Prod.snd ∧
      ∀ x ∈ items, x.2.map f = tokens x.1 := by
  induction xs generalizing us with
  | nil => exact ⟨[], rfl, List.map_eq_nil_iff.1 h, by simp⟩
  | cons x xs ih =>
    rw [List.flatMap_cons] at h
    obtain ⟨front, back, rfl, first, rest⟩ := List.map_eq_append_iff.1 h
    obtain ⟨items, rfl, rfl, each⟩ := ih rest
    exact ⟨(x, front) :: items, rfl, rfl, List.forall_mem_cons.2 ⟨first, each⟩⟩

/-- Tokens of items with commas between them are parted into the tokens of each. -/
theorem exists_of_map_tight_commaTokens {γ : Type} {tokens : γ → List Token} {us : List Token}
    {xs : List γ} (h : us.map Token.tight = commaTokens (xs.map tokens)) :
    ∃ items : List (γ × List Token), xs = items.map Prod.fst ∧
      us = commaTokens (items.map Prod.snd) ∧ ∀ x ∈ items, x.2.map Token.tight = tokens x.1 := by
  cases xs with
  | nil => exact ⟨[], rfl, List.map_eq_nil_iff.1 h, by simp⟩
  | cons x xs =>
    rw [List.map_cons, commaTokens, List.flatMap_map] at h
    obtain ⟨front, back, rfl, first, rest⟩ := List.map_eq_append_iff.1 h
    obtain ⟨items, rfl, rfl, each⟩ := exists_of_map_eq_flatMap rest
    have behind : ∀ y ∈ items, y.2 = .ofSymbol "," :: y.2.tail ∧
        y.2.tail.map Token.tight = tokens y.1 := by
      intro y mem
      obtain ⟨vs, eq, more⟩ := exists_of_map_tight_cons (each y mem) rfl
      simpa [eq] using more
    refine ⟨(x, front) :: items.map fun y => (y.1, y.2.tail), by simp, ?_, ?_⟩
    · rw [List.map_cons, commaTokens, List.flatMap_map, List.flatMap_map]
      exact congrArg (front ++ ·) (List.flatMap_congr fun y mem => (behind y mem).1)
    · rw [List.forall_mem_cons, List.forall_mem_map]
      exact ⟨first, fun y mem => (behind y mem).2⟩

theorem length_le_length_flatMap {α : Type} {tokens : α → List Token} {xs : List α} {x : α}
    (mem : x ∈ xs) : (tokens x).length ≤ (xs.flatMap tokens).length := by
  rw [List.flatMap_def]
  exact (List.sublist_flatten_of_mem (List.mem_map_of_mem mem)).length_le

theorem Outline.Parameter.length_type_le {ps : List Parameter} {p : Parameter} (mem : p ∈ ps) :
    p.type.tokens.length ≤ (parameterTokens ps).length := by
  have inside : p.type.tokens.length ≤ p.tokens.length := by simp [tokens]
  have among : p.tokens.length ≤ (commaTokens (ps.map tokens)).length := by
    cases ps with
    | nil => cases mem
    | cons q qs =>
      rw [List.map_cons, commaTokens, List.flatMap_map, List.length_append]
      rcases List.mem_cons.1 mem with rfl | later
      · omega
      · have shorter := @length_le_length_flatMap _
          (fun q : Parameter => .ofSymbol "," :: q.tokens) qs p later
        rw [List.length_cons] at shorter
        omega
  simp only [parameterTokens, List.length_cons, List.length_append]
  omega

/-- A depth that is enough for the tokens of all parameters is enough for each of their types. -/
theorem takes_parameters {depth : Nat} {ps : List Parameter}
    (fits : (parameterTokens ps).length ≤ depth) {us : List Token}
    (spelled : us.map Token.tight = parameterTokens ps) (rest : List Token) :
    Takes (parameters (ofDepth depth)) us rest (ps.map (·.type.kept)) false := by
  have fitsEach (p : Parameter) (mem : p ∈ ps) : p.type.tokens.length ≤ depth :=
    (Parameter.length_type_le mem).trans fits
  obtain ⟨inner, rfl, closed⟩ := exists_of_map_tight_cons spelled rfl
  obtain ⟨listed, rfl, inside⟩ := exists_of_map_tight_concat closed (by simp)
  obtain ⟨items, rfl, rfl, each⟩ := exists_of_map_tight_commaTokens inside
  have reads : ∀ x ∈ items.map fun x => (x.2, x.1.type.kept),
      ReadsAsParameter (ofDepth depth) x.1 x.2 := by
    rw [List.forall_mem_map]
    intro x mem
    have unclosed : ∀ t ∈ spreadTokens x.1.spread ++ [x.1.name.token],
        t.isSymbol ">" = false := by
      cases x.1.spread <;> simp [spreadTokens, Identifier.token]
    obtain ⟨front, eq, typed⟩ := exists_of_map_tight_concat (each x mem) unclosed
    exact ⟨front, x.1.spread, x.1.name, eq,
      x.1.type.readsAsType (fitsEach x.1 (List.mem_map_of_mem mem)) typed⟩
  have all := takes_parameters_of _ _ reads rest
  rw [List.map_map, List.map_map] at all
  rw [List.map_map]
  exact all

end ChangeImpact.Java
