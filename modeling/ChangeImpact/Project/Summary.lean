import ChangeImpact.Project.Run
import ChangeImpact.Text.Sink
import ChangeImpact.Text.Style

/-!
# Showing an outcome

The selected tests go to one sink, one on a line, for a program to read. A summary for
people goes to another, and whether that one takes it makes no difference.
-/

namespace ChangeImpact

namespace Outcome

def testLines (o : Outcome) : List String := o.analysis.selection.ids.map (· ++ "\n")

def cycleLines (wanted : Bool) (o : Outcome) : List String :=
  match o.analysis.cycles.cycles with
  | [] => ["  " ++ Text.styled wanted .green "✓" ++ " no dependency cycles\n"]
  | cycles => cycles.map fun c =>
    "  " ++ Text.styled wanted .yellow "⚠" ++ " cycle: "
      ++ Text.styled wanted .yellow c.text ++ "\n"

def countLine (wanted : Bool) (o : Outcome) : String :=
  let count := fun n => Text.styled wanted .cyan (toString n)
  "  " ++ count o.changed.size ++ " changed, " ++ count o.analysis.impact.size ++ " impacted, "
    ++ count o.analysis.selection.size ++ " tests selected\n"

def skippedFiles (o : Outcome) : Nat := o.account.failures.length + o.testFailures.length

def problemLines (wanted : Bool) (o : Outcome) : List String :=
  let cross := Text.styled wanted .red "✗"
  let skipped := o.skippedFiles
  let duplicates := o.account.duplicates.length
  (if 0 < skipped then
    ["  " ++ cross ++ " " ++ toString skipped ++ " files skipped (parse errors)\n"] else [])
  ++ (if 0 < duplicates then
    ["  " ++ cross ++ " " ++ toString duplicates ++ " duplicate class names rejected\n"] else [])

def reportLines (wanted : Bool) (o : Outcome) : List String :=
  match o.report? with
  | some (path, _) => ["  report: " ++ Text.styled wanted .dimmed path ++ "\n"]
  | none => []

def summaryLines (wanted : Bool) (o : Outcome) : List String :=
  if o.changed.isEmpty then
    [Text.styled wanted .dimmed "No changed Java classes; no tests selected." ++ "\n"]
  else
    (Text.styled wanted .bold "Architecture analysis" ++ "\n")
      :: (o.cycleLines wanted ++ [o.countLine wanted] ++ o.problemLines wanted
        ++ o.reportLines wanted)

/-- Write the summary, and tell whether it was taken. -/
def writeSummary (wanted : Bool) (o : Outcome) (s : Sink) : Sink × Bool :=
  s.writeAll (o.summaryLines wanted)

/-- Write the tests, and tell whether they were taken. -/
def writeTests (o : Outcome) (s : Sink) : Sink × Bool := s.writeAll o.testLines

/-- What is left of the two sinks after an outcome has been shown. -/
structure Displayed where
  tests : Sink
  summary : Sink
  /-- Whether all tests were taken. -/
  ok : Bool

def display (wanted : Bool) (o : Outcome) (tests summary : Sink) : Displayed :=
  let (summary, _) := o.writeSummary wanted summary
  let (tests, ok) := o.writeTests tests
  { tests, summary, ok }

end Outcome

end ChangeImpact
