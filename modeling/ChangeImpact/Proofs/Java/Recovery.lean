import ChangeImpact.Proofs.Java.Extraction
import ChangeImpact.Proofs.Java.OutlineReading

/-!
# Units of written sources

An outline is written down with any layout between its tokens, but none around a dot. From such
a source the unit of the outline is recovered, whatever the layout is, and with it the class names
of all types, in the order in which they stand there: those of a field as the field's, and those
of components and of parameters of constructors as types that are injected.

One word is in the way: `@interface` is a token of its own, and it is also read where the name of
an annotation only begins like it. Closing brackets of types in one another may stand close
together or apart. They are tokens of their own either way, so the layout in front of them is the
only one that is kept when a source is compared with a bare one.

## Main definitions

* `Written`: tokens with layout between them.
* `Token.bare`: a token without the layout that does not matter.

## Main statements

* `SourceUnit.ofText_eq_of_written`: the unit of a written outline is the outline's.
* `SourceUnit.ofText_interfaces`: a written outline that is not well formed, because the name of
  an annotation begins with `interface`.
* `SourceUnit.ofText_typeNames`: the class names in the types of a written outline without
  annotations.
-/

namespace ChangeImpact.Java

open ChangeImpact.Java.Outline

/-! ## Layout between tokens -/

/-- Some tokens are others with layout in front of them: blanks and comments, which part words
and do not stand around a dot. -/
structure Written (ts us : List Token) : Prop where
  same : ts.map (Token.relaid · []) = us
  layout : ∀ t ∈ ts, IsLayout t.layout
  words : ts.IsChain fun t t' => t.isWord = true → t'.isWord = true → t'.layout ≠ []
  dots : ts.IsChain fun t t' =>
    t.isSymbol "." = true ∨ t'.isSymbol "." = true → t'.layout = []

theorem Token.IsAmong.relaid {symbols : List String} {t : Token} (h : t.IsAmong symbols)
    (layout : List Char) : (t.relaid layout).IsAmong symbols := by
  cases h with
  | word _ begins continues => exact .word layout begins continues
  | symbol _ among => exact .symbol layout among

/-- Only closing brackets may be read as one with what stands before them. -/
theorem Token.IsLegible.isSymbol_of_fuses {t : Token} (legible : t.IsLegible)
    {before : List Token} (legibleBefore : ∀ p ∈ before.head?, p.IsLegible)
    (fuses : t.fuses before = true) : t.isSymbol ">" = true := by
  cases before with
  | nil => cases fuses
  | cons p more =>
    have legibleLast := legibleBefore p rfl
    simp only [Token.fuses, legible.isSymbol_eq_false (by decide : "-" ∉ declarationSymbols),
      legible.isSymbol_eq_false (by decide : "=" ∉ declarationSymbols),
      legibleLast.isSymbol_eq_false (by decide : "@interface" ∉ declarationSymbols),
      legibleLast.isSymbol_eq_false (by decide : "-" ∉ declarationSymbols), Bool.false_and,
      Bool.and_false, Bool.or_false, Bool.and_eq_true] at fuses
    exact fuses.2

/-- A token without its layout, unless it is a closing bracket. -/
def Token.bare (t : Token) : Token := t.relaid (if t.isSymbol ">" then t.layout else [])

/-- What two neighbours have in common with a dot: no layout stands around it, and a word or an
asterisk follows it. -/
structure Token.Dotted (t t' : Token) : Prop where
  close : t.isSymbol "." = true ∨ t'.isSymbol "." = true → t'.layout = []
  follows : t.isSymbol "." = true → t'.isWord = true ∨ t'.isSymbol "*" = true

/-- Layout that does not stand around a dot or in front of a closing bracket does not matter. -/
theorem relaid_bare {before ts : List Token} (legible : ∀ t ∈ ts, t.IsLegible)
    (dotted : ts.IsChain Token.Dotted)
    (first : ∀ p ∈ before.head?, p.IsLegible ∧ ∀ t ∈ ts.head?, p.Dotted t) :
    Relaid before (ts.map Token.bare) ts := by
  induction ts generalizing before with
  | nil => exact .same before []
  | cons t ts ih =>
    rw [List.forall_mem_cons] at legible
    rw [List.isChain_cons] at dotted
    have legibleBare : t.bare.IsLegible := legible.1.relaid _
    have more : Relaid (t.bare :: before) (ts.map Token.bare) ts := by
      apply ih legible.2 dotted.2
      rintro _ ⟨⟩
      refine ⟨legibleBare, fun t' next => ?_⟩
      exact ⟨(dotted.1 t' next).close, (dotted.1 t' next).follows⟩
    have lastDotted (p : Token) (last : p ∈ before.head?) : p.Dotted t := (first p last).2 t rfl
    refine .cons t.bare t.layout ?_ ?_ ?_ more
    · intro fuses
      have closes : t.isSymbol ">" = true :=
        legibleBare.isSymbol_of_fuses (fun p last => (first p last).1) fuses
      rw [Token.bare, if_pos closes]
      rfl
    · intro inName
      cases before with
      | nil => simp [Token.inName, Token.endsWithDot, Token.endsInPath] at inName
      | cons p more =>
        have close : t.layout = [] := by
          apply (lastDotted p rfl).close
          simp only [Token.inName, Bool.or_eq_true, Bool.and_eq_true] at inName
          exact inName.imp id And.left
        simp [Token.bare, Token.relaid, close]
    · intro dot
      cases before with
      | nil => cases dot
      | cons p more =>
        rcases (lastDotted p rfl).follows dot with word | star
        · simp only [Token.isWord, beq_iff_eq] at word
          simp [Token.beginsAnnotation, Token.isSymbol, Token.bare, word]
        · simp only [Token.isSymbol, Bool.and_eq_true, beq_iff_eq] at star
          simp [Token.beginsAnnotation, Token.isSymbol, Token.bare, star]

theorem Token.tight_bare (t : Token) : t.bare.tight = t.relaid [] := by
  by_cases closes : t.isSymbol ">" = true
  · rw [bare, if_pos closes, tight]
    exact if_pos closes
  · rw [bare, if_neg closes, tight]
    exact if_neg closes

/-- What stands between tokens does not make them less tidy. -/
theorem Token.Tidy.of_map_relaid {symbols : List String} {ts : List Token}
    (h : Tidy symbols (ts.map (Token.relaid · []))) : Tidy symbols ts where
  plain t mem := (h.plain _ (List.mem_map_of_mem mem)).relaid t.layout
  dots := (List.isChain_map (Token.relaid · [])).mp h.dots
  opens := (List.isChain_map (Token.relaid · [])).mp h.opens
  last t last := by
    refine h.last (t.relaid []) ?_
    rw [List.getLast?_map, Option.mem_def.1 last]
    rfl

/-! ## Units -/

section Units

variable {o : Outline} {ts : List Token} (written : Written ts o.tokens)

include written

theorem Written.tidy : Token.Tidy declarationSymbols ts :=
  .of_map_relaid (written.same ▸ o.tidy_tokens)

/-- The layout keeps the tokens apart, except that a word might grow together with an `@` to
`@interface`. -/
theorem Written.apart (clear : ts.IsChain fun t t' => t.isSymbol "@" = true → t'.layout = [] →
    ¬ "interface".toList <+: t'.text.toList) : ts.IsChain Token.Apart := by
  have follows := List.isChain_iff_forall_rel_of_append_cons_cons.mp written.tidy.dots
  have words := List.isChain_iff_forall_rel_of_append_cons_cons.mp written.words
  rw [List.isChain_iff_forall_rel_of_append_cons_cons] at clear ⊢
  exact fun _ _ _ _ eq => ⟨words eq, clear eq, follows eq⟩

/-- The unit of a written outline whose tokens do not grow together. The source is compared with
the bare one, and the bare one is read. -/
theorem SourceUnit.ofText_of_apart (path : String) (apart : ts.IsChain Token.Apart)
    {tail : List Char} (ending : IsEnding tail) :
    ofText path (String.ofList (Token.source ts ++ tail)) = .ok (some (o.unit path)) := by
  have tidy := written.tidy
  have follows := List.isChain_iff_forall_rel_of_append_cons_cons.mp tidy.dots
  have dots := List.isChain_iff_forall_rel_of_append_cons_cons.mp written.dots
  have dotted : ts.IsChain Token.Dotted :=
    List.isChain_iff_forall_rel_of_append_cons_cons.mpr fun _ _ _ _ eq => ⟨dots eq, follows eq⟩
  have spelled : (ts.map Token.bare).map Token.tight = o.tokens := by
    rw [← written.same, List.map_map]
    exact List.map_congr_left fun t _ => t.tight_bare
  have same : Relaid [] (ts.map Token.bare) ts := relaid_bare tidy.plain dotted (by simp)
  have sources := Source.parseTokens_agree ⟨_, _, same.sameTokens⟩
  rw [o.parseTokens_of_tight spelled] at sources
  rw [ofText, Source.parse, String.toList_ofList,
    Lexer.tokens_source ending tidy.plain written.layout apart tidy.opens]
  generalize Source.parseTokens ts = result at sources
  cases result with
  | error place => cases sources
  | ok s =>
    cases sources with
    | some alike => simp only [← alike.ofSource_eq same path, o.ofSource_items path]

end Units

/-- A source that is written from an outline, with any layout between its tokens that leaves them as
they are, has the unit that the outline describes. -/
theorem SourceUnit.ofText_eq_of_written (o : Outline) (path : String) {ts : List Token}
    {tail : List Char} (written : Written ts o.tokens)
    (clear : ts.IsChain fun t t' => t.isSymbol "@" = true → t'.layout = [] →
      ¬ "interface".toList <+: t'.text.toList)
    (ending : IsEnding tail) :
    ofText path (String.ofList (Token.source ts ++ tail)) = .ok (some (o.unit path)) :=
  ofText_of_apart written path (written.apart clear) ending

/-- An enum behind a package and imports of two kinds, with a test in a nested class. -/
def orderOutline : Outline where
  package? := some ⟨{ text := "com" }, [{ text := "shop" }]⟩
  imports :=
    [{ name := ⟨{ text := "com" }, [{ text := "Item" }]⟩ },
     { isStatic := true, onDemand := true, name := ⟨{ text := "org" }, []⟩ }]
  form := .enumForm [{ text := "OPEN" }, { text := "SENT" }] false
  first :=
    { annotations := [⟨{ text := "jpa" }, [{ text := "Entity" }]⟩]
      name := { text := "Order" }
      members :=
        [.field [⟨{ text := "Inject" }, []⟩] true (.named ⟨{ text := "Item" }, []⟩)
          { text := "item" },
         .nested [] { text := "Check" }
          [.field [] false (.named ⟨{ text := "Mock" }, []⟩) { text := "mock" },
           .method [⟨{ text := "Test" }, []⟩] none { text := "sends" } []],
         .constructor { text := "Order" }
          [{ type := .named ⟨{ text := "Clock" }, []⟩, name := { text := "clock" } }]] }

def orderTokens : List Token :=
  List.zipWith (fun t (layout : String) => t.relaid layout.toList) orderOutline.tokens
    ["", " ", "", "", "", "\n", " ", "", "", "", " ", " ", " ", "", "", "", "\n", "", "", "",
     " // stored\n", " ", " ", "", "", " ", "", "\n", "", " ", " ", " ", "", " ", " ", "", "", " ",
     "", " ", "", " ", " ", "", "", " ", "", "", "\n", "", "", " ", "", "", "", " "]

def orderSource : String :=
  "package com.shop;\nimport com.Item; import static org.*;\n@jpa.Entity // stored\n"
    ++ "enum Order \x7bOPEN, SENT;\n@Inject final Item item; class Check\x7bMock mock; "
    ++ "@Test void sends() \x7b\x7d\x7d\nOrder(Clock clock)\x7b\x7d \x7d\n// end"

def orderUnit : SourceUnit where
  path := "Order.java"
  packageName? := some "com.shop"
  typeName := "Order"
  annotations := ["Entity"]
  imports := ["com.Item"]
  fields := [{ annotations := ["Inject"], isFinal := true, typeNames := ["Item"] }]
  parameterTypes := ["Clock"]
  declaresTest := true

theorem SourceUnit.ofText_orderSource :
    Written orderTokens orderOutline.tokens ∧
    ofText "Order.java" orderSource = .ok (some orderUnit) := by
  have stored : ∀ c ∈ " stored".toList, Lexer.inLine c = true := List.all_eq_true.mp (by decide)
  have comment : IsLayout " // stored\n".toList := .blank rfl (.line stored .nil)
  have known : ∀ t ∈ orderTokens,
      t.layout = " // stored\n".toList ∨ t.layout.all Lexer.isBlank = true := by
    decide +kernel
  have written : Written orderTokens orderOutline.tokens := by
    refine ⟨by decide +kernel, fun t mem => ?_, by decide +kernel, by decide +kernel⟩
    rcases known t mem with eq | blank
    · exact eq ▸ comment
    · exact .of_isBlank blank
  have theEnd : ∀ c ∈ " end".toList, Lexer.inLine c = true := List.all_eq_true.mp (by decide)
  have ending : IsEnding "\n// end".toList := .line (.blank rfl .nil) theEnd
  have read := ofText_eq_of_written orderOutline "Order.java" written (by decide +kernel) ending
  have text : String.ofList (Token.source orderTokens ++ "\n// end".toList) = orderSource := by
    decide +kernel
  have unit : orderOutline.unit "Order.java" = orderUnit := by decide +kernel
  rw [text, unit] at read
  exact ⟨written, read⟩

/-- A class with an annotation whose name begins with `interface`. -/
def ledgerOutline : Outline where
  form := .classForm
  first :=
    { annotations := [⟨{ text := "interfaces" }, [{ text := "Audited" }]⟩]
      name := { text := "Ledger" } }

def ledgerTokens : List Token :=
  List.zipWith (fun t (layout : String) => t.relaid layout.toList) ledgerOutline.tokens
    ["", "", "", "", " ", " ", " ", " "]

/-- Close to the `@`, the name of an annotation must not begin with `interface`: the source is not
well formed, although its outline has a unit. -/
theorem SourceUnit.ofText_interfaces :
    let source := "@interfaces.Audited class Ledger \x7b \x7d\n"
    Written ledgerTokens ledgerOutline.tokens ∧ IsEnding ['\n'] ∧
    String.ofList (Token.source ledgerTokens ++ ['\n']) = source ∧
    (ledgerOutline.unit "Ledger.java").annotations = ["Audited"] ∧
    (ofText "Ledger.java" source).toOption = none := by
  have blank : ∀ t ∈ ledgerTokens, t.layout.all Lexer.isBlank = true := by decide +kernel
  refine ⟨⟨by decide +kernel, fun t mem => .of_isBlank (blank t mem), by decide +kernel,
    by decide +kernel⟩, .layout (.blank rfl .nil), by decide +kernel, by decide +kernel,
    by decide +kernel⟩

/-! ## Class names of written types -/

/-- The class names in the types of a written outline without annotations: those in the type of a
field are the field's, and those in components and in parameters of constructors are injected,
whichever kind of type it is. -/
theorem SourceUnit.ofText_typeNames (o : Outline) (path : String) {ts : List Token}
    {tail : List Char} (written : Written ts o.tokens)
    (unmarked : ∀ t ∈ o.tokens, t.isSymbol "@" = false) (ending : IsEnding tail) :
    ofText path (String.ofList (Token.source ts ++ tail)) = .ok (some (o.unit path)) ∧
    (o.unit path).fields.map Field.typeNames
      = (o.first.members.filterMap Member.fieldType?).map TypeExpr.names ∧
    (o.unit path).parameterTypes = (o.form.components
      ++ o.first.members.flatMap Member.parameters).flatMap (·.type.names) := by
  have apart : ts.IsChain Token.Apart := by
    apply written.apart
    refine List.isChain_iff_forall_rel_of_append_cons_cons.mpr fun t t' _ _ eq marker => ?_
    have bare : t.relaid [] ∈ o.tokens := by
      rw [← written.same]
      exact List.mem_map_of_mem (by simp [eq])
    have noMarker : t.isSymbol "@" = false := unmarked (t.relaid []) bare
    rw [noMarker] at marker
    cases marker
  refine ⟨ofText_of_apart written path apart ending, ?_, List.flatMap_append.symm⟩
  rw [Outline.unit, List.map_filterMap, List.map_filterMap]
  congr 1
  funext m
  cases m <;> rfl

/-- A class with types in one another, and with a parameter that stands for several values. -/
def shelfOutline : Outline where
  form := .classForm
  first :=
    { name := { text := "Shelf" }
      members :=
        [.field [] true
          (.array (.generic ⟨{ text := "Map" }, []⟩
            (.cons (.type (.named ⟨{ text := "Key" }, []⟩))
              (.last (.upper (.generic ⟨{ text := "Set" }, []⟩
                (.last (.type (.generic ⟨{ text := "Box" }, []⟩
                  (.last (.type (.named ⟨{ text := "Part" }, []⟩))))))))))))
          { text := "boxes" },
         .constructor { text := "Shelf" }
          [{ type := .primitive .int, name := { text := "size" } },
           { type := .generic ⟨{ text := "util" }, [{ text := "List" }]⟩
              (.last (.lower (.array (.named ⟨{ text := "Part" }, []⟩))))
             spread := true
             name := { text := "rows" } }]] }

def shelfTokens : List Token :=
  List.zipWith (fun t (layout : String) => t.relaid layout.toList) shelfOutline.tokens
    ["", " ", " ", "\n", " ", "", "", "", " ", " ", " ", "", "", "", "", "", " ", "", "", "", " ",
     "", " // open\n", "", "", " ", "", " ", "", "", "", "", " ", " ", "", "", "", "", " ", "", " ",
     " ", "\n"]

/-- A record with two components. -/
def pairOutline : Outline where
  form := .recordForm
    [{ type := .generic ⟨{ text := "Optional" }, []⟩ (.last .any), name := { text := "first" } },
     { type := .array (.named ⟨{ text := "stock" }, [{ text := "Part" }]⟩)
       name := { text := "rest" } }]
  first := { name := { text := "Pair" } }

def pairTokens : List Token :=
  List.zipWith (fun t (layout : String) => t.relaid layout.toList) pairOutline.tokens
    ["", " ", "", "", "", " ", " ", " ", "", "\n", "", "", "", "", " ", "", " ", ""]

theorem SourceUnit.ofText_shelf_pair :
    Written shelfTokens shelfOutline.tokens ∧ Written pairTokens pairOutline.tokens ∧
    ofText "Shelf.java"
      ("class Shelf \x7b\nfinal Map<Key, ? extends Set<Box<Part> >>[] boxes; // open\n"
        ++ "Shelf(int size, util.List<? super Part[]>... rows) \x7b \x7d\n\x7d\n")
      = .ok (some
        { path := "Shelf.java"
          typeName := "Shelf"
          fields := [{ isFinal := true, typeNames := ["Map", "Key", "Set", "Box", "Part"] }]
          parameterTypes := ["List", "Part"] }) ∧
    ofText "Pair.java" "record Pair(Optional< ? > first,\nstock.Part[] rest) \x7b\x7d\n"
      = .ok (some
        { path := "Pair.java", typeName := "Pair", parameterTypes := ["Optional", "Part"] }) := by
  have opened : ∀ c ∈ " open".toList, Lexer.inLine c = true := List.all_eq_true.mp (by decide)
  have comment : IsLayout " // open\n".toList := .blank rfl (.line opened .nil)
  have known : ∀ t ∈ shelfTokens,
      t.layout = " // open\n".toList ∨ t.layout.all Lexer.isBlank = true := by
    decide +kernel
  have shelf : Written shelfTokens shelfOutline.tokens := by
    refine ⟨by decide +kernel, fun t mem => ?_, by decide +kernel, by decide +kernel⟩
    rcases known t mem with eq | blank
    · exact eq ▸ comment
    · exact .of_isBlank blank
  have blank : ∀ t ∈ pairTokens, t.layout.all Lexer.isBlank = true := by decide +kernel
  have pair : Written pairTokens pairOutline.tokens :=
    ⟨by decide +kernel, fun t mem => .of_isBlank (blank t mem), by decide +kernel,
      by decide +kernel⟩
  have ending : IsEnding ['\n'] := .layout (.blank rfl .nil)
  have readShelf := ofText_typeNames shelfOutline "Shelf.java" shelf (by decide +kernel) ending
  have readPair := ofText_typeNames pairOutline "Pair.java" pair (by decide +kernel) ending
  refine ⟨shelf, pair, ?_, ?_⟩
  · convert readShelf.1 using 2 <;> decide +kernel
  · convert readPair.1 using 2 <;> decide +kernel

end ChangeImpact.Java
