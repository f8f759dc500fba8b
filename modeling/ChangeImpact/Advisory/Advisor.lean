import ChangeImpact.Advisory.Duration
import ChangeImpact.Graph.Projection

/-!
# Advisors

An advisor comments on the structure of a program. Nothing hangs on what it says: if
it fails, or does not answer in time, a fixed text takes the place of its answer.
-/

namespace ChangeImpact

namespace Advisory

/-- Why there is no answer. -/
inductive Failure where
  | notConfigured (reason : String)
  /-- The service cannot be reached. -/
  | unreachable (reason : String)
  /-- The service refused. -/
  | refused (status : Nat) (body : String)
  | malformedResponse (detail : String)
  | prompt (detail : String)
  | timeout (limit : Duration)
deriving DecidableEq, Inhabited

def Failure.message : Failure → String
  | .notConfigured reason => "advisory not configured: " ++ reason
  | .unreachable reason => "HTTP error: " ++ reason
  | .refused status body => "service returned " ++ toString status ++ ": " ++ body
  | .malformedResponse detail => "malformed response: " ++ detail
  | .prompt detail => "prompt error: " ++ detail
  | .timeout limit => "advisory timed out after " ++ limit.text

/-- What comes of a question. -/
inductive Reply where
  | answer (text : String)
  | failure (cause : Failure)
  /-- Nothing ever comes. -/
  | silence
  /-- The advisor breaks down. -/
  | breakdown
deriving DecidableEq, Inhabited

/-- Comments on the dependencies between classes. -/
abbrev Advisor : Type := Projection → Reply

def disabled (reason : String) : Advisor := fun _ => .failure (.notConfigured reason)

/-- The text for a run without an answer. -/
def fallback : String := "Architecture advisory unavailable for this run."

/-- Wait for an answer. An answer that is there at once is in time for any limit. -/
def await (limit : Duration) : Reply → Option (Except Failure String)
  | .answer text => some (.ok text)
  | .failure cause => some (.error cause)
  | .silence => some (.error (.timeout limit))
  | .breakdown => none

/-- The answer of an advisor, or the text that takes its place. -/
def advise (advisor : Advisor) (projection : Projection) (limit : Duration) : String :=
  match await limit (advisor projection) with
  | some (.ok text) => text
  | _ => fallback

end Advisory

end ChangeImpact
