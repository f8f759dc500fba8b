import ChangeImpact.Advisory.Advisor
import ChangeImpact.FileTree.Sources
import ChangeImpact.Project.Config
import ChangeImpact.Project.Report

/-!
# Running an analysis

A project's sources and tests are read, the change is analysed, and the advisor is
asked about the graph. If nothing has changed, nothing is done.
-/

namespace ChangeImpact

structure Project where
  root : String
  config : Config := {}

structure Outcome where
  changed : NameSet := .empty
  analysis : Analysis := {}
  result : AnalysisResult := {}
  account : BuildAccount := {}
  /-- The test files that could not be used. -/
  testFailures : List Java.ExtractionError := []
  /-- The report and the path of its file, if one can be written. -/
  report? : Option (String × Report) := none

namespace Project

/-- The project in a directory, with the settings in the given file or its own. -/
def inDirectory (fs : FileSystem) (root : String) (configPath? : Option String) :
    Except ConfigError Project := do
  return ⟨root, ← Config.forProject fs root configPath?⟩

/-- How long the advisor is waited for. -/
def patience (p : Project) : Duration := .ofSeconds p.config.advisory.timeoutSeconds

def reportPath (p : Project) : String := Path.join (p.config.reportPath p.root) Report.fileName

/-- Analyse a change of a project. -/
def run (p : Project) (fs : FileSystem) (changed : NameSet) (advisor : Advisory.Advisor)
    (writeReport : Bool) : Outcome :=
  if changed.isEmpty then {}
  else
    let build := GraphBuild.ofFiles fs p.config.basePackage
      (fs.scan (p.config.sourcePath p.root))
    let discovery := TestDiscovery.ofFiles fs (fs.scan (p.config.testPath p.root))
    let graph := build.graph
    let advisory := Advisory.advise advisor (graph.project .empty) p.patience
    let excluded := graph.defaultExclusions
    let analysis := graph.analyze changed discovery.tests excluded
    let report := Report.ofAnalysis changed analysis (graph.project excluded) advisory
      build.account.problems
    let writable := writeReport && fs.accepts (p.config.reportPath p.root) Report.fileName
    { changed
      analysis
      result := AnalysisResult.ofAnalysis analysis advisory
      account := build.account
      testFailures := discovery.failures
      report? := if writable then some (p.reportPath, report) else none }

end Project

end ChangeImpact
