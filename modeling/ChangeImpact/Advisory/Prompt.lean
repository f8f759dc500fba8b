import ChangeImpact.Graph.Projection

/-!
# The question put to an advisor

The advisor is shown the projected graph as JSON inside a fenced block, and is
told what to look for.
-/

namespace ChangeImpact.Advisory

def promptHead : String := "\n".intercalate
  ["You are an experienced reviewer of Java Spring architectures.",
   "Analyze the dependency graph below and point out likely architecture problems.",
   "The JSON maps each class name to \x7b\"dependsOn\": [...], \"dependedOnBy\": [...]\x7d.",
   "\"dependsOn\" lists the classes it uses; \"dependedOnBy\" lists the classes using it.",
   "",
   "Look for:",
   "1. High coupling: classes with roughly ten or more dependencies or dependents (possible god classes).",
   "2. Layer violations: controllers should use services and services should use repositories; flag anything else, such as a controller using a repository directly.",
   "3. Unstable dependencies: core domain classes depending directly on volatile modules such as external API clients.",
   "",
   "Answer with a short markdown list. For each finding give the classes involved, the problem and a fix in at most three lines.",
   "If nothing stands out, answer \"No significant architecture issues found.\"",
   "",
   ""]

def openingFence : String := "```json"

def closingFence : String := "```"

def prompt (p : Projection) : String :=
  promptHead ++ openingFence ++ "\n" ++ p.toJson.pretty ++ "\n" ++ closingFence ++ "\n"

end ChangeImpact.Advisory
