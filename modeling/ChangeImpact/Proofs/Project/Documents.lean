import ChangeImpact.Project.Report
import ChangeImpact.Proofs.Json.RoundTrip

/-!
# Reading documents back

Every document that a run hands on says exactly what it was made from. Each kind of document
has a reader here, which asks for the keys of the format in their order and for nothing
else; it refuses a key that comes twice. Reading the text of a document gives back the
value that was written, so no two values share a text.

Tests are written as the keys of an object, and so are the classes of a projection: tests
are told apart by their names, and classes come in the order of theirs.

## Main definitions

* `Json.record?`, `Json.entries?`, `Json.list?`: readers for the parts of a document.
* `AnalysisResult.ofJson?`, `CycleReport.ofJson?`, `Projection.ofJson?`, `Report.ofJson?`:
  the readers of the documents.

## Main statements

* `documents_decode`: all documents can be read back.
-/

namespace ChangeImpact

/-! ## Parts of documents -/

namespace Json

section

variable {α : Type}

def text? : Json → Option String
  | .string s => some s
  | _ => none

/-- The value of a number that is written in digits alone. -/
def count? : Json → Option Nat
  | .number literal =>
    if literal.toList.all Char.isDigit then some (Nat.ofDigitChars 10 literal.toList 0) else none
  | _ => none

def list? (item : Json → Option α) : Json → Option (List α)
  | .array items => items.mapM item
  | _ => none

/-- The entries of an object, in order, no two of which have the same key. -/
def entries? (value : Json → Option α) : Json → Option (List (String × α))
  | .object fields =>
    if (fields.map Prod.fst).Nodup then fields.mapM fun (key, j) => (value j).map (key, ·) else none
  | _ => none

/-- The values of an object with the given keys in the given order, and no others. -/
def record? (keys : List String) : Json → Option (List Json)
  | .object fields => if fields.map Prod.fst = keys then some (fields.map Prod.snd) else none
  | _ => none

/-- With `part` for what is read back, so that it serves for whole elements and for parts of them.
-/
theorem mapM_map_eq_some {β γ : Type} {encode : α → β} {decode : β → Option γ} {part : α → γ}
    (h : ∀ x, decode (encode x) = some (part x)) (xs : List α) :
    (xs.map encode).mapM decode = some (xs.map part) := by
  induction xs with
  | nil => rfl
  | cons x xs ih => simp [List.mapM_cons, h, ih]

theorem list?_array (encode : α → Json) {item : Json → Option α}
    (h : ∀ x, item (encode x) = some x) (xs : List α) :
    list? item (.array (xs.map encode)) = some xs :=
  (mapM_map_eq_some h xs).trans (by rw [List.map_id'])

@[simp] theorem texts?_strings (xs : List String) : list? text? (.strings xs) = some xs :=
  list?_array .string (fun _ => rfl) xs

/-- An object whose entries come from some data, with a key and a value from each. -/
theorem entries?_object {β : Type} {encode : α → Json} {value : Json → Option α}
    (h : ∀ a, value (encode a) = some a) {key : β → String} (part : β → α) {xs : List β}
    (distinct : (xs.map key).Nodup) :
    entries? value (.object (xs.map fun x => (key x, encode (part x))))
      = some (xs.map fun x => (key x, part x)) := by
  have keys : (xs.map fun x => (key x, encode (part x))).map Prod.fst = xs.map key := by simp
  rw [entries?, if_pos (keys ▸ distinct)]
  exact mapM_map_eq_some (fun x => by simp [h]) xs

@[simp] theorem count?_nat (n : Nat) : count? (.nat n) = some n := by
  have digits : (Nat.toDigits 10 n).all Char.isDigit = true :=
    List.all_eq_true.2 fun c hc => isDigit_of_mem_toDigits hc
  rw [nat, count?, toList_toString_nat, if_pos digits, Nat.ofDigitChars_ten_toDigits]

end

theorem wholeNumbers_array {α : Type} {encode : α → Json} (h : ∀ x, (encode x).WholeNumbers)
    (xs : List α) : (array (xs.map encode)).WholeNumbers := by
  refine .array fun j hj => ?_
  obtain ⟨x, -, rfl⟩ := List.mem_map.1 hj
  exact h x

theorem wholeNumbers_entries {α : Type} {encode : α → String × Json}
    (h : ∀ x, (encode x).2.WholeNumbers) (xs : List α) :
    (object (xs.map encode)).WholeNumbers := by
  refine .object fun f hf => ?_
  obtain ⟨x, -, rfl⟩ := List.mem_map.1 hf
  exact h x

theorem wholeNumbers_strings (xs : List String) : (strings xs).WholeNumbers :=
  wholeNumbers_array .string xs

end Json

/-! ## Selections and cycles -/

def Selection.ofJson? (j : Json) : Option Selection := do
  let entries ← j.entries? (Json.list? Json.text?)
  let tests := entries.map fun e => SelectedTest.mk e.1 e.2
  if distinct : (tests.map SelectedTest.test).Nodup then return ⟨tests, distinct⟩ else none

def Cycle.ofJson? (j : Json) : Option Cycle := do return ⟨← j.list? Json.text?⟩

def prunedOfJson? (j : Json) : Option (String × String) := do
  match ← j.record? ["from", "to"] with
  | [user, used] => return (← user.text?, ← used.text?)
  | _ => none

def CycleReport.ofJson? (j : Json) : Option CycleReport := do
  match ← j.record? ["cycles", "pruned_edges"] with
  | [cycles, pruned] =>
    return { cycles := ← cycles.list? Cycle.ofJson?, pruned := ← pruned.list? prunedOfJson? }
  | _ => none

def AnalysisResult.ofJson? (j : Json) : Option AnalysisResult := do
  match ← j.record? ["impactedTestsWithPaths", "cycles", "advisoryText"] with
  | [tests, cycles, advisory] =>
    return { selection := ← Selection.ofJson? tests, cycles := ← cycles.list? Cycle.ofJson?,
             advisory := ← advisory.text? }
  | _ => none

/-- No test is selected twice, so the object has no key twice. -/
theorem Selection.ofJson?_toJson (s : Selection) : Selection.ofJson? s.toJson = some s := by
  have entries := Json.entries?_object Json.texts?_strings SelectedTest.path s.distinct
  simp [ofJson?, toJson, entries, Function.comp_def, s.distinct]

theorem Cycle.list?_ofJson? (cycles : List Cycle) :
    Json.list? Cycle.ofJson? (.array (cycles.map fun c => .strings c.names)) = some cycles :=
  Json.list?_array _ (fun c => by simp [Cycle.ofJson?]) cycles

theorem CycleReport.ofJson?_toJson (r : CycleReport) : CycleReport.ofJson? r.toJson = some r := by
  have edge (e : String × String) :
      prunedOfJson? (.object [("from", .string e.1), ("to", .string e.2)]) = some e := rfl
  have pruned := Json.list?_array _ edge r.pruned
  simp [ofJson?, toJson, Json.record?, Cycle.list?_ofJson?, pruned]

theorem AnalysisResult.ofJson?_toJson (r : AnalysisResult) :
    AnalysisResult.ofJson? r.toJson = some r := by
  simp [ofJson?, toJson, Json.record?, Cycle.list?_ofJson?, Selection.ofJson?_toJson, Json.text?]

/-! ## Projections and reports -/

def Neighbourhood.ofJson? (j : Json) : Option Neighbourhood := do
  match ← j.record? ["dependsOn", "dependedOnBy"] with
  | [dependsOn, dependedOnBy] =>
    return ⟨← dependsOn.list? Json.text?, ← dependedOnBy.list? Json.text?⟩
  | _ => none

/-- A projection: an object from a class to its neighbourhood, in the order of the classes. -/
def Projection.ofJson? (j : Json) : Option Projection := do
  let entries ← j.entries? Neighbourhood.ofJson?
  if sorted : (entries.map Prod.fst).Pairwise (· < ·) then return ⟨entries, sorted⟩ else none

def ReportedProblems.ofJson? (j : Json) : Option ReportedProblems := do
  match ← j.record? ["parseFailures", "duplicateClasses", "droppedReferences"] with
  | [failures, duplicates, dropped] =>
    return { parseFailures := ← failures.list? Json.text?,
             duplicateClasses := ← duplicates.list? Json.text?,
             droppedReferences := ← dropped.count? }
  | _ => none

def impactedOfJson? (j : Json) : Option (String × List String) := do
  match ← j.record? ["name", "path"] with
  | [name, path] => return (← name.text?, ← path.list? Json.text?)
  | _ => none

def Report.ofJson? (j : Json) : Option (String × Report) := do
  match ← j.record? ["generatedAt", "changed", "impacted", "selectedTests", "cycles",
      "prunedEdgeCount", "graph", "advisory", "diagnostics"] with
  | [time, changed, impacted, tests, cycles, pruned, graph, advisory, problems] =>
    return (← time.text?,
      { changed := ← changed.list? Json.text?, impacted := ← impacted.list? impactedOfJson?,
        selection := ← Selection.ofJson? tests, cycles := ← cycles.list? Cycle.ofJson?,
        prunedEdges := ← pruned.count?, graph := ← Projection.ofJson? graph,
        advisory := ← advisory.text?, problems := ← ReportedProblems.ofJson? problems })
  | _ => none

theorem Projection.nodup (p : Projection) : (p.entries.map Prod.fst).Nodup := by
  refine p.sorted.imp ?_
  rintro a b lt rfl
  exact String.lt_irrefl a lt

/-- The classes come back sorted, as a projection has to have them. -/
theorem Projection.ofJson?_toJson (p : Projection) : Projection.ofJson? p.toJson = some p := by
  have value (n : Neighbourhood) : Neighbourhood.ofJson? (.object [("dependsOn",
      .strings n.dependsOn), ("dependedOnBy", .strings n.dependedOnBy)]) = some n := by
    simp [Neighbourhood.ofJson?, Json.record?]
  have entries : p.toJson.entries? Neighbourhood.ofJson? = some p.entries :=
    (Json.entries?_object value Prod.snd p.nodup).trans (by simp)
  rw [ofJson?, entries]
  exact dif_pos p.sorted

theorem ReportedProblems.ofJson?_toJson (p : ReportedProblems) :
    ReportedProblems.ofJson? p.toJson = some p := by
  simp [ofJson?, toJson, Json.record?]

theorem Report.ofJson?_toJson (r : Report) (time : String) :
    Report.ofJson? (r.toJson time) = some (time, r) := by
  have entry (e : String × List String) :
      impactedOfJson? (.object [("name", .string e.1), ("path", .strings e.2)]) = some e := by
    simp [impactedOfJson?, Json.record?, Json.text?]
  have impacted := Json.list?_array _ entry r.impacted
  simp [ofJson?, toJson, Json.record?, Json.text?, impacted, Selection.ofJson?_toJson,
    Cycle.list?_ofJson?, Projection.ofJson?_toJson, ReportedProblems.ofJson?_toJson]

/-! ## The texts of documents -/

theorem Selection.wholeNumbers_toJson (s : Selection) : s.toJson.WholeNumbers :=
  Json.wholeNumbers_entries (fun t => Json.wholeNumbers_strings t.path) s.tests

theorem Cycle.wholeNumbers_array (cycles : List Cycle) :
    (Json.array (cycles.map fun c => .strings c.names)).WholeNumbers :=
  Json.wholeNumbers_array (fun c => Json.wholeNumbers_strings c.names) cycles

theorem CycleReport.wholeNumbers_toJson (r : CycleReport) : r.toJson.WholeNumbers := by
  have edge (e : String × String) :
      (Json.object [("from", .string e.1), ("to", .string e.2)]).WholeNumbers :=
    .object (by simp [Json.WholeNumbers.string])
  have pruned := Json.wholeNumbers_array edge r.pruned
  exact .object (by simp [Cycle.wholeNumbers_array, pruned])

theorem AnalysisResult.wholeNumbers_toJson (r : AnalysisResult) : r.toJson.WholeNumbers := by
  refine .object ?_
  simp [Selection.wholeNumbers_toJson, Cycle.wholeNumbers_array, Json.WholeNumbers.string]

theorem Projection.wholeNumbers_toJson (p : Projection) : p.toJson.WholeNumbers := by
  refine Json.wholeNumbers_entries (fun e => .object ?_) p.entries
  simp [Json.wholeNumbers_strings]

theorem ReportedProblems.wholeNumbers_toJson (p : ReportedProblems) : p.toJson.WholeNumbers :=
  .object (by simp [Json.wholeNumbers_strings, Json.WholeNumbers.nat])

theorem Report.wholeNumbers_toJson (r : Report) (time : String) : (r.toJson time).WholeNumbers := by
  have entry (e : String × List String) :
      (Json.object [("name", .string e.1), ("path", .strings e.2)]).WholeNumbers :=
    .object (by simp [Json.WholeNumbers.string, Json.wholeNumbers_strings])
  have impacted := Json.wholeNumbers_array entry r.impacted
  refine .object ?_
  simp [Json.WholeNumbers.string, Json.WholeNumbers.nat, Json.wholeNumbers_strings, impacted,
    Selection.wholeNumbers_toJson, Cycle.wholeNumbers_array, Projection.wholeNumbers_toJson,
    ReportedProblems.wholeNumbers_toJson]

/-- The text of every document is read back as the document: under the keys of the format in
their order, with lists in order, every test and every class once, and all strings as they were.
So no two documents of a kind have the same text. -/
theorem documents_decode :
    (∀ r : AnalysisResult,
      (Json.parse? r.toJson.compact).bind AnalysisResult.ofJson? = some r) ∧
    (∀ r : CycleReport, (Json.parse? r.toJson.compact).bind CycleReport.ofJson? = some r) ∧
    (∀ p : Projection, (Json.parse? p.toJson.pretty).bind Projection.ofJson? = some p) ∧
    (∀ (r : Report) (time : String),
      (Json.parse? (r.toJson time).pretty).bind Report.ofJson? = some (time, r)) ∧
    (∀ r r' : AnalysisResult, r.toJson.compact = r'.toJson.compact → r = r') ∧
    (∀ r r' : CycleReport, r.toJson.compact = r'.toJson.compact → r = r') ∧
    (∀ p p' : Projection, p.toJson.pretty = p'.toJson.pretty → p = p') ∧
    (∀ (r r' : Report) (time time' : String),
      (r.toJson time).pretty = (r'.toJson time').pretty → r = r') ∧
    ∀ (g : Graph) (changed : NameSet) (tests : TestMap) (excluded : NameSet),
      (g.analyze changed tests excluded).selection.ids.Nodup ∧
        ((g.project excluded).entries.map Prod.fst).Pairwise (· < ·) := by
  have result (r : AnalysisResult) :
      (Json.parse? r.toJson.compact).bind AnalysisResult.ofJson? = some r := by
    rw [Json.parse?_compact r.wholeNumbers_toJson, Option.bind_some, AnalysisResult.ofJson?_toJson]
  have cycles (r : CycleReport) :
      (Json.parse? r.toJson.compact).bind CycleReport.ofJson? = some r := by
    rw [Json.parse?_compact r.wholeNumbers_toJson, Option.bind_some, CycleReport.ofJson?_toJson]
  have projection (p : Projection) :
      (Json.parse? p.toJson.pretty).bind Projection.ofJson? = some p := by
    rw [Json.parse?_pretty p.wholeNumbers_toJson, Option.bind_some, Projection.ofJson?_toJson]
  have report (r : Report) (time : String) :
      (Json.parse? (r.toJson time).pretty).bind Report.ofJson? = some (time, r) := by
    rw [Json.parse?_pretty (r.wholeNumbers_toJson time), Option.bind_some, Report.ofJson?_toJson]
  refine ⟨result, cycles, projection, report, ?_, ?_, ?_, ?_, fun g changed tests excluded => ?_⟩
  · intro r r' same
    exact Option.some.inj ((result r).symm.trans (same ▸ result r'))
  · intro r r' same
    exact Option.some.inj ((cycles r).symm.trans (same ▸ cycles r'))
  · intro p p' same
    exact Option.some.inj ((projection p).symm.trans (same ▸ projection p'))
  · intro r r' time time' same
    have both := (report r time).symm.trans (same ▸ report r' time')
    exact congrArg Prod.snd (Option.some.inj both)
  · exact ⟨(g.analyze changed tests excluded).selection.distinct, (g.project excluded).sorted⟩

/-- Names made of quotes, backslashes, control characters and nothing at all. -/
theorem documents_decode_unusual_names :
    let selection : Selection := ⟨[⟨"a\"b\\", ["\x01", "", "é\n😀"]⟩, ⟨"", []⟩], by decide⟩
    let graph : Projection :=
      ⟨[("", ⟨["\t"], []⟩), ("\"]", ⟨[], ["\x7d", "\\u0041"]⟩)], by decide⟩
    let report : Report :=
      { changed := ["\r"], impacted := [("", [])], selection, cycles := [⟨["\x7b", "\x7b"]⟩],
        prunedEdges := 10, graph, advisory := "\x1f", problems := {} }
    (Json.parse? (AnalysisResult.toJson ⟨selection, [], "\x00"⟩).compact).bind
      AnalysisResult.ofJson? = some ⟨selection, [], "\x00"⟩ ∧
    (Json.parse? graph.toJson.pretty).bind Projection.ofJson? = some graph ∧
    (Json.parse? (report.toJson "").pretty).bind Report.ofJson? = some ("", report) ∧
    ∀ p : Projection, p.toJson.pretty = graph.toJson.pretty → p = graph := by
  intro selection graph report
  obtain ⟨result, -, projection, reported, -, -, same, -⟩ := documents_decode
  exact ⟨result _, projection _, reported _ _, fun p => same p graph⟩

end ChangeImpact
