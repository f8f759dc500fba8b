import ChangeImpact.Graph.CycleSearch
import ChangeImpact.Graph.Selection
import ChangeImpact.Json.Basic

/-!
# Analysing a change

The analysis of a change joins the three questions asked of a graph: which
cycles it has, what a change affects, and which tests that selects.
-/

namespace ChangeImpact

structure Analysis where
  cycles : CycleReport := {}
  impact : Impact := {}
  selection : Selection := .empty
deriving DecidableEq, Inhabited

/-- Analyse a change. Exclusions concern the search for cycles only. -/
def Graph.analyze (g : Graph) (changed : NameSet) (tests : TestMap) (excluded : NameSet) :
    Analysis :=
  let impact := g.propagate changed
  { cycles := g.findCycles excluded
    impact := impact
    selection := impact.selectTests tests }

def CycleReport.toJson (r : CycleReport) : Json :=
  .object
    [("cycles", .array (r.cycles.map fun c => .strings c.names)),
     ("pruned_edges", .array (r.pruned.map fun (user, used) =>
       .object [("from", .string user), ("to", .string used)]))]

/-- Selected tests as an object from a test to its chain. -/
def Selection.toJson (s : Selection) : Json :=
  .object (s.tests.map fun t => (t.test, .strings t.path))

/-- What a run hands on: the selected tests, the cycles, and the advisor's text. -/
structure AnalysisResult where
  selection : Selection := .empty
  cycles : List Cycle := []
  advisory : String := ""
deriving DecidableEq, Inhabited

namespace AnalysisResult

def ofAnalysis (a : Analysis) (advisory : String) : AnalysisResult :=
  { selection := a.selection, cycles := a.cycles.cycles, advisory }

def toJson (r : AnalysisResult) : Json :=
  .object
    [("impactedTestsWithPaths", r.selection.toJson),
     ("cycles", .array (r.cycles.map fun c => .strings c.names)),
     ("advisoryText", .string r.advisory)]

end AnalysisResult

end ChangeImpact
