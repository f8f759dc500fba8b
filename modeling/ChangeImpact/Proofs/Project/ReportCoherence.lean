import ChangeImpact.Project.Run
import ChangeImpact.Proofs.Graph.CycleSearch
import ChangeImpact.Proofs.Graph.Projection
import ChangeImpact.Proofs.Graph.Selection

/-!
# The parts of a report agree

A report puts together what was found in three ways: the affected classes with their
chains, the cycles, and the projection of the graph. That they belong together is not
said anywhere in it. It holds since there is a chain for every affected class, so that
none has to be made up, and since the cycles and the projection leave out the same
classes.

## Main definitions

* `Report.Coherent`: what one part of a report says is borne out by the others.

## Main statements

* `reports_coherent`: the report on every run is coherent.
-/

namespace ChangeImpact

/-- What one part of a report says is borne out by the others. -/
structure Report.Coherent (r : Report) : Prop where
  /-- The chain of an affected class leads to it from a changed one. -/
  impacted : ∀ entry ∈ r.impacted, ∃ x ∈ r.changed,
    entry.2.head? = some x ∧ entry.2.getLast? = some entry.1
  /-- The chain of a selected test is that of the affected class at its end. -/
  selected : ∀ t ∈ r.selection.tests, ∃ name, t.path.getLast? = some name ∧
    ∀ path, (name, path) ∈ r.impacted ↔ path = t.path
  /-- The classes of a cycle are in the graph, and it shows the dependencies along the cycle. -/
  cycles : ∀ c ∈ r.cycles, (∀ n ∈ c.names, (r.graph.find? n).isSome = true) ∧
    c.names.IsChain r.graph.Shows

namespace Report

/-- An affected class is reported with the chain along which it was found, and no other class is. -/
theorem mem_impacted_ofAnalysis {g : Graph} {changed : NameSet} {tests : TestMap}
    {excluded : NameSet} {graph : Projection} {advisory : String} {problems : ReportedProblems}
    {name : String} {path : List String} :
    (name, path)
        ∈ (ofAnalysis changed (g.analyze changed tests excluded) graph advisory problems).impacted ↔
      (g.propagate changed).pathTo? name = some path := by
  change (name, path) ∈ (g.propagate changed).order.map
    (fun n => (n, ((g.propagate changed).pathTo? n).getD [])) ↔ _
  rw [List.mem_map]
  constructor
  · rintro ⟨n, hn, same⟩
    obtain ⟨rfl, rfl⟩ := Prod.mk.inj same
    obtain ⟨path, found⟩ := Option.isSome_iff_exists.1
      (Graph.isSome_pathTo?_propagate.2 (Impact.contains_iff.2 hn))
    rw [found, Option.getD_some]
  · intro found
    have affected := Impact.contains_iff.1 (Impact.contains_of_pathTo?_eq_some found)
    exact ⟨name, affected, by rw [found, Option.getD_some]⟩

/-- A report is coherent if its graph leaves out the classes that the search for cycles left out. -/
theorem coherent_ofAnalysis (g : Graph) (changed : NameSet) (tests : TestMap) (excluded : NameSet)
    (advisory : String) (problems : ReportedProblems) :
    (ofAnalysis changed (g.analyze changed tests excluded) (g.project excluded) advisory
      problems).Coherent := by
  constructor
  case impacted =>
    rintro ⟨name, path⟩ entry
    obtain ⟨x, hx, walk⟩ := Graph.walk_of_pathTo?_eq_some (mem_impacted_ofAnalysis.1 entry)
    exact ⟨x, hx, walk.first, walk.last⟩
  case selected =>
    intro t ht
    obtain ⟨c, -, -, found⟩ := Impact.exists_of_mem_selectTests ht
    obtain ⟨x, -, walk⟩ := Graph.walk_of_pathTo?_eq_some found
    refine ⟨c, walk.last, fun path => ?_⟩
    rw [mem_impacted_ofAnalysis, found, Option.some.injEq, eq_comm]
  case cycles =>
    intro c hc
    have closed := (Graph.elementary_of_mem_cycles hc).toClosedWalk
    obtain ⟨x, walk⟩ := closed.exists_walk
    refine ⟨fun n hn => ?_, walk.linked.imp fun _ _ uses => uses.shows_project⟩
    have round := Graph.transGen_self_iff.2 ⟨c.names, closed, hn⟩
    obtain ⟨m, uses, -⟩ := Relation.TransGen.head'_iff.1 round
    obtain ⟨⟨entry, found, -⟩, -⟩ := uses.shows_project
    exact Option.isSome_iff_exists.2 ⟨entry, found⟩

end Report

/-- The report on an analysis that leaves out the data carriers is coherent, and so is every report
that a run leaves behind. -/
theorem reports_coherent :
    (∀ (g : Graph) (changed : NameSet) (tests : TestMap) (advisory : String)
        (problems : ReportedProblems),
      (Report.ofAnalysis changed (g.analyze changed tests g.defaultExclusions)
        (g.project g.defaultExclusions) advisory problems).Coherent) ∧
    ∀ (p : Project) (fs : FileSystem) (changed : NameSet) (advisor : Advisory.Advisor)
        (writeReport : Bool) (path : String) (report : Report),
      (p.run fs changed advisor writeReport).report? = some (path, report) → report.Coherent := by
  constructor
  · intro g changed tests advisory problems
    exact Report.coherent_ofAnalysis g changed tests _ advisory problems
  · intro p fs changed advisor writeReport path report written
    unfold Project.run at written
    split at written
    · simp at written
    · simp only [Option.ite_none_right_eq_some, Option.some.injEq, Prod.mk.injEq] at written
      obtain ⟨-, -, rfl⟩ := written
      exact Report.coherent_ofAnalysis _ _ _ _ _ _

/-- Two classes that use each other, and a data carrier that one of them uses and that uses the
other. -/
def carrierBetween : Graph :=
  .ofNames ["Cart", "CartDto", "Shop"]
    [("Cart", "Shop"), ("Shop", "Cart"), ("Cart", "CartDto"), ("CartDto", "Shop")]

/-- A run with a change leaves a report if a file for it can be made. -/
theorem Project.exists_report?_run (p : Project) (fs : FileSystem) {changed : NameSet}
    (advisor : Advisory.Advisor) (some_changed : changed.isEmpty = false)
    (writable : fs.accepts (p.config.reportPath p.root) Report.fileName = true) :
    ∃ report, (p.run fs changed advisor true).report? = some (p.reportPath, report) := by
  simp [Project.run, some_changed, writable]

theorem reports_coherent_carrierBetween :
    let changed := NameSet.ofList ["Cart"]
    let report := Report.ofAnalysis changed
      (carrierBetween.analyze changed (.ofList [("Shop", "ShopTest")])
        carrierBetween.defaultExclusions)
      (carrierBetween.project carrierBetween.defaultExclusions) "" {}
    report.selection.tests = [⟨"ShopTest", ["Cart", "Shop"]⟩] ∧
    (∀ path, ("Shop", path) ∈ report.impacted ↔ path = ["Cart", "Shop"]) ∧
    report.cycles = [⟨["Cart", "Shop", "Cart"]⟩] ∧
    report.graph.Shows "Cart" "Shop" ∧ report.graph.Shows "Shop" "Cart" ∧
    ∃ report, (Project.run { root := "shop", config := { reportDir := "out" } } ⟨[[], []]⟩ changed
      (Advisory.disabled "") true).report? = some ("shop/out/ripple-report.json", report) ∧
      report.Coherent := by
  intro changed report
  have coherent : report.Coherent := reports_coherent.1 _ _ _ _ _
  have impact : carrierBetween.propagate changed
      = ⟨[⟨"Cart", .changed⟩, ⟨"Shop", .via "Cart"⟩, ⟨"CartDto", .via "Shop"⟩]⟩ := by
    have seeds : changed.toList = ["Cart"] := by decide
    have ofCart : carrierBetween.newDependents [⟨"Cart", .changed⟩] "Cart"
        = [⟨"Shop", .via "Cart"⟩] := by decide
    have ofShop : carrierBetween.newDependents [⟨"Cart", .changed⟩, ⟨"Shop", .via "Cart"⟩] "Shop"
        = [⟨"CartDto", .via "Shop"⟩] := by decide
    have ofDto : carrierBetween.newDependents
        [⟨"Cart", .changed⟩, ⟨"Shop", .via "Cart"⟩, ⟨"CartDto", .via "Shop"⟩] "CartDto" = [] := by
      decide
    simp [Graph.propagate, Graph.spread, seeds, ofCart, ofShop, ofDto]
  have selection : report.selection.tests = [⟨"ShopTest", ["Cart", "Shop"]⟩] := by
    change ((carrierBetween.propagate changed).selectTests _).tests = _
    rw [impact]
    decide
  have cycles : report.cycles = [⟨["Cart", "Shop", "Cart"]⟩] := by
    have found : carrierBetween.findCyclesWithin carrierBetween.defaultExclusions 9
        = some ⟨[⟨["Cart", "Shop", "Cart"]⟩], [("Cart", "CartDto")]⟩ := by decide
    change (carrierBetween.findCycles _).cycles = _
    rw [Graph.findCycles_eq_of_within found]
  obtain ⟨name, last, only⟩ :=
    coherent.selected ⟨"ShopTest", ["Cart", "Shop"]⟩ (by simp [selection])
  obtain rfl : "Shop" = name := by simpa using last
  obtain ⟨-, shows⟩ := coherent.cycles ⟨["Cart", "Shop", "Cart"]⟩ (by simp [cycles])
  obtain ⟨there, back⟩ : report.graph.Shows "Cart" "Shop" ∧ report.graph.Shows "Shop" "Cart" := by
    simpa using shows
  refine ⟨selection, only, cycles, there, back, ?_⟩
  have directory : Path.join "shop" "out" = "shop/out" := by decide +kernel
  have file : Path.join "shop/out" Report.fileName = "shop/out/ripple-report.json" := by
    decide +kernel
  have writable : FileSystem.accepts ⟨[[], []]⟩ "shop/out" Report.fileName = true := by
    have parts : RawText.pieces "shop/out" = [.ofText "shop", .ofText "out"] := by decide +kernel
    have relative : RawText.isAbsolute "shop/out" = false := by decide +kernel
    have short : ∀ name ∈ ["shop", "out", "ripple-report.json"],
        (RawText.ofText name).bytes.length ≤ 255 := by decide +kernel
    simp only [List.forall_mem_cons, ← Nat.not_lt] at short
    simp [FileSystem.accepts, FileSystem.makeWay, FileSystem.resolve, FileSystem.startOf,
      FileSystem.longestName, parts, relative, short, Report.fileName]
  obtain ⟨written, run⟩ := Project.exists_report?_run
    { root := "shop", config := { reportDir := "out" } } ⟨[[], []]⟩ (Advisory.disabled "")
    (show changed.isEmpty = false by decide) (by rw [Config.reportPath, directory]; exact writable)
  rw [Project.reportPath, Config.reportPath, directory, file] at run
  exact ⟨written, run, reports_coherent.2 _ _ _ _ _ _ _ run⟩

end ChangeImpact
