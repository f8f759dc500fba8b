import ChangeImpact.Graph.Analysis
import ChangeImpact.Graph.Projection
import ChangeImpact.Project.Build

/-!
# Reports

What a run leaves behind for others to read.
-/

namespace ChangeImpact

/-- What went wrong while a graph was built, as texts. -/
structure ReportedProblems where
  parseFailures : List String := []
  duplicateClasses : List String := []
  droppedReferences : Nat := 0
deriving DecidableEq, Inhabited

def BuildAccount.problems (a : BuildAccount) : ReportedProblems where
  parseFailures := a.failures.map Java.ExtractionError.text
  duplicateClasses := a.duplicates.map DuplicateClass.message
  droppedReferences := a.dropped

def ReportedProblems.toJson (p : ReportedProblems) : Json :=
  .object
    [("parseFailures", .strings p.parseFailures),
     ("duplicateClasses", .strings p.duplicateClasses),
     ("droppedReferences", .nat p.droppedReferences)]

structure Report where
  changed : List String
  /-- The affected classes, each with the chain that leads to it. -/
  impacted : List (String × List String)
  selection : Selection
  cycles : List Cycle
  /-- How many edges the search for cycles passed over. -/
  prunedEdges : Nat
  graph : Projection
  advisory : String
  problems : ReportedProblems
deriving DecidableEq, Inhabited

namespace Report

def ofAnalysis (changed : NameSet) (a : Analysis) (graph : Projection) (advisory : String)
    (problems : ReportedProblems) : Report where
  changed := changed.toList
  impacted := a.impact.order.map fun name => (name, (a.impact.pathTo? name).getD [])
  selection := a.selection
  cycles := a.cycles.cycles
  prunedEdges := a.cycles.pruned.length
  graph := graph
  advisory := advisory
  problems := problems

def toJson (r : Report) (generatedAt : String) : Json :=
  .object
    [("generatedAt", .string generatedAt),
     ("changed", .strings r.changed),
     ("impacted", .array (r.impacted.map fun (name, path) =>
       .object [("name", .string name), ("path", .strings path)])),
     ("selectedTests", r.selection.toJson),
     ("cycles", .array (r.cycles.map fun c => .strings c.names)),
     ("prunedEdgeCount", .nat r.prunedEdges),
     ("graph", r.graph.toJson),
     ("advisory", .string r.advisory),
     ("diagnostics", r.problems.toJson)]

def fileName : String := "ripple-report.json"

end Report

end ChangeImpact
