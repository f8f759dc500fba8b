import ChangeImpact.Proofs.Java.Extraction
import ChangeImpact.Proofs.Java.Outline

/-!
# Names of declared types

The name of a type that a source declares is a word of the source. So it has no dot in it,
whatever else the source holds.

## Main definitions

* `Parser.Yields`: what holds of the values that a parser reads, if all words ahead are of one
  kind.

## Main statements

* `Lexer.isWordText_of_mem_tokens`: a word among the tokens of a text is read as one word.
* `Grammar.yields_item`: a type at the top of a source is named by a word.
* `SourceUnit.isWordText_typeName`: so is the type of a unit.
-/

namespace ChangeImpact.Java

open ChangeImpact.Java.Parser

/-! ## Words of a text -/

namespace Lexer

/-- Only what begins as a word becomes one. -/
theorem lexeme?_eq_word {within within' : List Embedding} {c : Char} {cs : List Char} {n : Nat}
    (h : lexeme? within (c :: cs) = some ⟨.word, n, within'⟩) :
    beginsWord c = true ∧ n = 1 + (cs.takeWhile continuesWord).length := by
  have noString (opened : Nat) (inside block : Bool) (outer : List Embedding)
      (body : Option (StringEnd × Nat)) :
      stringToken opened inside block outer body ≠ some ⟨.word, n, within'⟩ := by
    rcases body with _ | ⟨ending, length⟩
    · simp [stringToken]
    · cases ending <;> cases inside <;> simp [stringToken]
  have noSymbol : symbolToken? within (c :: cs) ≠ some ⟨.word, n, within'⟩ := by
    simp [symbolToken?]
  have noCharacter : (characterLength? cs).bind (fun k =>
      if k = 1 then none else some (Lexed.mk .character (1 + k) within))
      ≠ some ⟨.word, n, within'⟩ := by
    cases characterLength? cs with
    | none => simp
    | some k => by_cases empty : k = 1 <;> simp [empty]
  unfold lexeme? at h
  dsimp only at h
  split at h
  · rename_i begins
    simp only [Option.some.injEq, Lexed.mk.injEq, true_and] at h
    exact ⟨begins, h.1.symm⟩
  split at h
  · simp at h
  split at h
  · exact absurd h noCharacter
  split at h
  · split at h <;> exact absurd h (noString _ _ _ _ _)
  split at h
  · split at h
    · exact absurd h (noString _ _ _ _ _)
    · exact absurd h noSymbol
  · exact absurd h noSymbol

/-- What is read as a word consists of the characters of one. -/
theorem isWordText_of_lexeme? {within within' : List Embedding} {cs : List Char} {n : Nat}
    (h : lexeme? within cs = some ⟨.word, n, within'⟩) :
    isWordText (String.ofList (cs.take n)) = true := by
  cases cs with
  | nil => cases h
  | cons c cs =>
    obtain ⟨begins, rfl⟩ := lexeme?_eq_word h
    have word : (c :: cs).take (1 + (cs.takeWhile continuesWord).length)
        = c :: cs.takeWhile continuesWord := by
      have start := List.takeWhile_prefix continuesWord (l := cs)
      rw [Nat.add_comm, List.take_succ_cons, ← List.prefix_iff_eq_take.1 start]
    rw [word, isWordText, String.toList_ofList]
    simp only [begins, Bool.true_and, List.all_takeWhile]

/-- By the recursion of the lexer, which makes a word of a character that begins one and of all that
continue it. -/
theorem isWordText_of_mem_tokensWithin (within : List Embedding) (cs : List Char) :
    ∀ t ∈ tokensWithin within cs, t.isWord = true → isWordText t.text = true := by
  fun_induction tokensWithin within cs with
  | case1 => exact nofun
  | case2 within cs body notEmpty layout found rest shorter ih =>
    rw [List.forall_mem_cons]
    refine ⟨fun isWord => ?_, ih⟩
    have kind : found.kind = .word := by simpa [Token.isWord] using isWord
    cases read : lexeme? within body with
    | none => simp [found, read] at kind
    | some lexed =>
      obtain ⟨_, n, within'⟩ := lexed
      simp only [found, read, Option.getD_some] at kind ⊢
      subst kind
      exact isWordText_of_lexeme? read
  | case3 => exact nofun

theorem isWordText_of_mem_tokens (cs : List Char) :
    ∀ t ∈ tokens cs, t.isWord = true → isWordText t.text = true := by
  unfold tokens
  split
  · rename_i rest
    have inside := isWordText_of_mem_tokensWithin [] rest
    split
    · simp
    · rename_i t ts eq
      rw [eq, List.forall_mem_cons] at inside
      exact List.forall_mem_cons.2 inside
  · exact isWordText_of_mem_tokensWithin [] cs

end Lexer

/-! ## What a parser reads from words -/

namespace Parser

variable {α β : Type}

/-- What a parser leaves are the last of the tokens ahead. -/
theorem exists_rest_eq_drop {p : Parser α} (h : ∀ S, TakesAlike S p) {ts : List Token}
    {s : Success α} (read : p.run ts = some s) : ∃ n, s.rest = ts.drop n := by
  cases (h ⟨ts, ts, .refl [] ts⟩).agree ts ts ⟨[], SourcePair.at_start _⟩ with
  | neither left =>
    rw [left] at read
    cases read
  | both a a' tests n left =>
    rw [left] at read
    cases read
    exact ⟨n, rfl⟩

/-- If all words ahead are of one kind, a parser reads only values of another. -/
def Yields (W : String → Prop) (P : α → Prop) (p : Parser α) : Prop :=
  ∀ ts : List Token, (∀ t ∈ ts, t.isWord = true → W t.text) → ∀ s, p.run ts = some s → P s.value

namespace Yields

variable {W : String → Prop} {P : α → Prop} {Q : β → Prop} {p : Parser α} {f : α → Parser β}

theorem pure {a : α} (h : P a) : Yields W P (pure a) := by
  rintro ts - s read
  cases read
  exact h

theorem fail : Yields W P fail := by
  rintro ts - s read
  cases read

/-- What the first part reads can be used in the second. -/
theorem andThen [alike : ∀ S, TakesAlike S p] (first : Yields W P p)
    (second : ∀ a, P a → Yields W Q (f a)) : Yields W Q (p >>= f) := by
  intro ts words s read
  rw [run_bind] at read
  obtain ⟨s₁, read₁, later⟩ := Option.bind_eq_some_iff.1 read
  obtain ⟨s₂, read₂, rfl⟩ := Option.map_eq_some_iff.1 later
  obtain ⟨n, rest⟩ := exists_rest_eq_drop alike read₁
  refine second s₁.value (first ts words s₁ read₁) s₁.rest (fun t mem => words t ?_) s₂ read₂
  rw [rest] at mem
  exact List.mem_of_mem_drop mem

/-- Nothing has to be known of what the first part reads. -/
theorem bind [∀ S, TakesAlike S p] (second : ∀ a, Yields W Q (f a)) : Yields W Q (p >>= f) :=
  andThen (P := fun _ => True) (fun _ _ _ _ => trivial) fun a _ => second a

theorem word : Yields W W word := by
  intro ts words s read
  cases ts with
  | nil => cases read
  | cons t rest =>
    rw [Parser.word, wordExcept, run_bind, run_satisfy_cons] at read
    split at read
    · rename_i isWord
      cases read
      rw [Bool.and_eq_true] at isWord
      exact (List.forall_mem_cons.1 words).1 isWord.1
    · cases read

theorem orElse {q : Unit → Parser α} (first : Yields W P p) (second : Yields W P (q ())) :
    Yields W P (orElse p q) := by
  intro ts words s read
  rw [run_orElse, Option.or_eq_some_iff] at read
  rcases read with read | ⟨-, read⟩
  · exact first ts words s read
  · exact second ts words s read

theorem ite {q : Parser α} {c : Prop} [Decidable c] (first : Yields W P p)
    (second : Yields W P q) : Yields W P (if c then p else q) := by
  split
  · exact first
  · exact second

theorem ahead_bind {f : List Token → Parser β} (h : ∀ ts, Yields W Q (f ts)) :
    Yields W Q (ahead >>= f) := by
  intro ts words s read
  rw [run_ahead_bind] at read
  exact h ts ts words s read

theorem toEnd [alike : ∀ S, TakesAlike S p] (h : Yields W P p) :
    Yields W (fun as => ∀ a ∈ as, P a) (toEnd p) := by
  intro ts
  induction length_eq : ts.length using Nat.strongRecOn generalizing ts with
  | ind m ih =>
    intro words s read
    cases ts with
    | nil =>
      rw [run_toEnd_nil] at read
      cases read
      exact nofun
    | cons t rest =>
      rw [run_toEnd_cons] at read
      obtain ⟨s₁, read₁, later⟩ := Option.bind_eq_some_iff.1 read
      split at later
      · rename_i shorter
        obtain ⟨s₂, read₂, rfl⟩ := Option.map_eq_some_iff.1 later
        obtain ⟨n, dropped⟩ := exists_rest_eq_drop alike read₁
        have wordsLater : ∀ t ∈ s₁.rest, t.isWord = true → W t.text := by
          intro u mem
          rw [dropped] at mem
          exact words u (List.mem_of_mem_drop mem)
        refine List.forall_mem_cons.2 ⟨h _ words s₁ read₁, ?_⟩
        exact ih _ (length_eq ▸ shorter) s₁.rest rfl wordsLater s₂ read₂
      · cases later

end Yields

end Parser

/-! ## Types at the top of a source -/

/-- If an item declares a type, its name is of some kind. -/
def Item.Named (W : String → Prop) : Item → Prop
  | .type d => W d.name
  | _ => True

namespace Grammar

variable {S : SourcePair} (g : Grammar) [g.Uniform] {W : String → Prop} (m : Modifiers)
  (top : Bool)

instance plainBody_takes (kind : BodyKind) : TakesAlike S (plainBody g kind) :=
  (plainBody_alike g kind).agree.takesAlike

instance enumBody_takes : TakesAlike S (enumBody g) := (enumBody_alike g).agree.takesAlike

instance modifiers_takes : TakesAlike S (modifiers g) := (modifiers_alike g).agree.takesAlike

theorem yields_classRest : Yields W (fun d => W d.name) (classRest g m) :=
  .bind fun _ => .andThen .word fun _ isWord => .bind fun _ => .bind fun _ => .bind fun _ =>
    .bind fun _ => .bind fun _ => .pure isWord

theorem yields_interfaceRest : Yields W (fun d => W d.name) (interfaceRest g m) :=
  .bind fun _ => .andThen .word fun _ isWord => .bind fun _ => .bind fun _ => .bind fun _ =>
    .bind fun _ => .pure isWord

theorem yields_enumRest : Yields W (fun d => W d.name) (enumRest g m) :=
  .bind fun _ => .andThen .word fun _ isWord => .bind fun _ => .bind fun _ => .pure isWord

theorem yields_recordRest : Yields W (fun d => W d.name) (recordRest g m) :=
  .bind fun _ => .andThen .word fun _ isWord => .bind fun _ => .bind fun _ => .bind fun _ =>
    .bind fun _ => .pure isWord

theorem yields_annotationTypeRest : Yields W (fun d => W d.name) (annotationTypeRest g m) :=
  .bind fun _ => .andThen .word fun _ isWord => .bind fun _ => .pure isWord

theorem yields_typeRest : Yields W (fun d => W d.name) (typeRest g m) :=
  .bind fun _ => .ite (yields_classRest g m) <| .bind fun _ => .ite (yields_interfaceRest g m) <|
    .bind fun _ => .ite (yields_enumRest g m) (yields_annotationTypeRest g m)

theorem yields_type {p : Parser TypeDeclaration} [∀ S, TakesAlike S p]
    (h : Yields W (fun d => W d.name) p) : Yields W (Item.Named W) (do return .type (← p)) :=
  h.andThen fun _ named => .pure named

theorem yields_nothingDeclared (p : Parser Unit) [∀ S, ReadsAlike S p] :
    Yields W (Item.Named W) (nothingDeclared p) :=
  .bind fun _ => .pure trivial

theorem yields_packageRest : Yields W (Item.Named W) packageRest :=
  .bind fun _ => .bind fun _ => .bind fun _ => .pure trivial

theorem yields_importRule : Yields W (Item.Named W) importRule :=
  .bind fun _ => .bind fun _ => .bind fun _ => .bind fun _ => .bind fun _ => .pure trivial

instance typeRest_takes : TakesAlike S (typeRest g m) := (typeRest_agree g ⟨rfl, rfl⟩).takesAlike

instance recordRest_takes : TakesAlike S (recordRest g m) :=
  (recordRest_agree g ⟨rfl, rfl⟩).takesAlike

instance methodRest_takes : TakesAlike S (methodRest g m) :=
  (methodRest_agree g ⟨rfl, rfl⟩).takesAlike

theorem yields_declarationRest : Yields W (Item.Named W) (declarationRest g top m) := by
  refine .ahead_bind fun ts => ?_
  refine .ite (yields_type (yields_typeRest g m)) <|
    .ite (yields_type (yields_recordRest g m)) <| .ite yields_packageRest <|
    .ite (.bind fun _ => .pure trivial) <| .ite ?_ ?_
  · exact .bind fun _ => .bind fun _ => .bind fun _ => .bind fun _ => .bind fun _ => .pure trivial
  refine .ite (.bind fun _ => ?_) (.bind fun _ => ?_)
  all_goals
    refine .ahead_bind fun ts => ?_
    split
    · exact .ite (.bind fun _ => .bind fun _ => .pure trivial) (.bind fun _ => .pure trivial)
    · exact .fail

theorem yields_modifiedDeclaration : Yields W (Item.Named W) (modifiedDeclaration g top) :=
  .bind fun m => yields_declarationRest g m top

theorem yields_symbolItem (text : String) : Yields W (Item.Named W) (symbolItem g top text) :=
  .ite (yields_nothingDeclared _) <| .ite (yields_nothingDeclared _) <|
    .ite (.orElse (yields_modifiedDeclaration g top) (yields_nothingDeclared _)) <|
    .ite (yields_declarationRest g {} top) (yields_nothingDeclared _)

theorem yields_wordItem (t : Token) (rest : List Token) :
    Yields W (Item.Named W) (wordItem g top t rest) :=
  .ite (yields_modifiedDeclaration g top) <|
    .ite (.orElse (yields_modifiedDeclaration g top) (yields_nothingDeclared _)) <|
    .ite (yields_nothingDeclared _) <|
    .orElse (yields_declarationRest g {} top) (.bind fun _ => .pure trivial)

theorem yields_wordOrExpression (rest : List Token) {p : Parser Item}
    (h : Yields W (Item.Named W) p) : Yields W (Item.Named W) (wordOrExpression g rest p) :=
  .ite (yields_nothingDeclared _) (.orElse h (yields_nothingDeclared _))

theorem yields_keywordItem (t : Token) (rest : List Token) :
    Yields W (Item.Named W) (keywordItem g top t rest) := by
  unfold keywordItem
  split
  any_goals exact yields_nothingDeclared _
  any_goals exact yields_declarationRest g {} top
  any_goals exact yields_wordOrExpression g rest (yields_nothingDeclared _)
  · exact yields_importRule
  · exact yields_packageRest
  · exact yields_wordOrExpression g rest (yields_type (yields_recordRest g {}))
  · exact .ite (yields_nothingDeclared _) (yields_modifiedDeclaration g top)
  · exact yields_wordItem g top t rest

/-- A type at the top of a source is named by a word of it. -/
theorem yields_item : Yields W (Item.Named W) (item g top) := by
  refine .ahead_bind fun ts => ?_
  cases ts with
  | nil => exact .fail
  | cons t rest =>
    dsimp only
    split
    · exact yields_symbolItem g top t.text
    · exact yields_keywordItem g top t rest
    · exact yields_nothingDeclared _

end Grammar

/-! ## The type of a unit -/

/-- Whatever else the grammar makes of a declaration, its name is a word of the source. -/
theorem Source.isWordText_firstType? {text : String} {s : Source} {d : TypeDeclaration}
    (parsed : Source.parse text = .ok s) (first : s.firstType? = some d) :
    isWordText d.name = true := by
  let rule := (Grammar.ofDepth ((Lexer.tokens text.toList).length + 1)).item true
  have takes (S : SourcePair) : TakesAlike S rule := (Grammar.item_alike _ true).agree.takesAlike
  have named := (Grammar.yields_item (W := fun w => isWordText w = true) _ true).toEnd (p := rule)
    _ (Lexer.isWordText_of_mem_tokens text.toList)
  rw [Source.parse, Source.parseTokens] at parsed
  split at parsed
  · rename_i found read
    cases parsed
    obtain ⟨i, mem, chosen⟩ := List.exists_of_findSome?_eq_some first
    have isNamed := named _ read i mem
    cases i with
    | type e =>
      dsimp only at chosen
      split at chosen
      · cases chosen
      · cases chosen
        exact isNamed
    | package | imported | other => cases chosen
  · cases parsed

namespace SourceUnit

theorem isWordText_typeName_of_text {path text : String} {u : SourceUnit}
    (read : ofText path text = .ok (some u)) : isWordText u.typeName = true := by
  rw [ofText] at read
  split at read
  · rename_i s parsed
    obtain ⟨d, first, rfl⟩ := Option.map_eq_some_iff.1 (Except.ok.inj read)
    exact Source.isWordText_firstType? parsed first
  · cases read

/-- The type of a unit that comes from a file is named by a word. -/
theorem isWordText_typeName {fs : FileSystem} {path : RawText} {u : SourceUnit}
    (read : ofFile fs path = .ok (some u)) : isWordText u.typeName = true := by
  rw [ofFile] at read
  split at read
  · rw [ofBytes] at read
    split at read
    · exact isWordText_typeName_of_text read
    · cases read
  · cases read

end SourceUnit

end ChangeImpact.Java
