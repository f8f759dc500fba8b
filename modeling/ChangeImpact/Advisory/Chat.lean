import ChangeImpact.Advisory.Advisor
import ChangeImpact.Advisory.Prompt
import ChangeImpact.Json.Reader
import ChangeImpact.Project.Config

/-!
# Asking a chat service

The advisor that sends the prompt to a chat service and takes the first message of the
reply.

## Main definitions

* `ChatClient.ofParts`, `ChatClient.ofSettings`: the client, if it is configured.
* `ChatClient.request`, `ChatClient.authorization`: what is sent.
* `contentOfResponse`, `replyOfResponse`: what is made of the response.
-/

namespace ChangeImpact

namespace Advisory

structure ChatClient where
  endpoint : String
  apiKey : String
  model : String
deriving DecidableEq, Inhabited

namespace ChatClient

/-- Whether a value is given and not blank. -/
def given? (value : Option String) : Option String := value.filter fun v => Text.trim v != ""

def ofParts (endpoint? apiKey? : Option String) (model : String) : Except Failure ChatClient :=
  match given? endpoint?, given? apiKey? with
  | some endpoint, some apiKey => .ok ⟨endpoint, apiKey, model⟩
  | none, _ => .error (.notConfigured "endpoint URL not set")
  | some _, none => .error (.notConfigured "API key not set")

/-- The client with the address and the key from the environment variables in the settings. -/
def ofSettings (environment : String → Option String) (s : AdvisorySettings) :
    Except Failure ChatClient :=
  if s.enabled then
    match ofParts (environment s.urlVariable) (environment s.keyVariable) s.model with
    | .ok client => .ok client
    | .error _ =>
      .error (.notConfigured ("set " ++ s.urlVariable ++ " and " ++ s.keyVariable ++ " to enable"))
  else .error (.notConfigured "disabled in configuration")

def request (client : ChatClient) (projection : Projection) : Json :=
  .object
    [("model", .string client.model),
     ("messages",
       .array [.object [("role", .string "user"), ("content", .string (prompt projection))]])]

def authorization (client : ChatClient) : String := "Bearer " ++ client.apiKey

end ChatClient

/-! ## Responses -/

open Json (Written unescape?)

/-- The value of a named field, if there is one. None at all if a name cannot be understood or
the field comes twice. -/
def field? (name : String) (fields : List (List Char × Written)) : Option (Option Written) := do
  let keys ← fields.mapM fun (key, _) => unescape? key
  match (keys.zip fields).filter fun (key, _) => key = name.toList with
  | [] => some none
  | [(_, _, value)] => some (some value)
  | _ => none

def optional? {α : Type} (read : Written → Option α) : Option Written → Option (Option α)
  | none | some .null => some none
  | some value => (read value).map some

def textOf? : Written → Option String
  | .string body => (unescape? body).map String.ofList
  | _ => none

/-- The content of a message: by name, or as the only item of an array. -/
def messageContent? : Written → Option (Option String)
  | .object fields => do optional? textOf? (← field? "content" fields)
  | .array [content] => optional? textOf? (some content)
  | _ => none

/-- The content of a choice's message: by name, or as the only item of an array. -/
def choiceContent? : Written → Option (Option String)
  | .object fields => do return (← optional? messageContent? (← field? "message" fields)).join
  | .array [message] => do return (← optional? messageContent? (some message)).join
  | _ => none

def choices? : Written → Option (List (Option String))
  | .array choices => choices.mapM choiceContent?
  | _ => none

/-- The contents of all choices in a response: by name, or as the only item of an array. They
may be left out. -/
def responseContents? : Written → Option (List (Option String))
  | .object fields => do
    match ← field? "choices" fields with
    | some choices => choices? choices
    | none => some []
  | .array [] => some []
  | .array [choices] => choices? choices
  | _ => none

/-- Said of a response that is well formed but has no message. -/
def noContent : String := "no message content"

/-- The content of the first choice's message. -/
def contentOfResponse (body : String) : Except Failure String :=
  match (Written.parse? body).bind responseContents? with
  | none => .error (.malformedResponse "not a chat response")
  | some contents =>
    match contents.head?.join with
    | some content => .ok content
    | none => .error (.malformedResponse noContent)

/-- The body of a response. There is none where the status says that there is nothing to send. -/
def bodyOfResponse (status : Nat) (body : String) : String :=
  if status = 204 || status = 304 then "" else body

def replyOfResponse (status : Nat) (body : String) : Except Failure String :=
  let received := bodyOfResponse status body
  if 200 ≤ status && status < 300 then contentOfResponse received
  else .error (.refused status received)

end Advisory

end ChangeImpact
