import PodWebhook.Admission.Gateway
import PodWebhook.Http.MediaType
import PodWebhook.Http.Message

/-!
The routes of the server. Reviews are posted to one path, two more answer probes. A body that is too
large is refused before its content type is looked at, and everything reported while a review is
answered carries the name of the host.
-/

namespace PodWebhook.Http

def mutatingPath : String := "/pod-mutating"

def livenessPath : String := "/healthz"

def readinessPath : String := "/readyz"

def maxBody : Nat := 2097152

inductive Route where
  | mutating
  | probe
  deriving DecidableEq, Repr

def Route.ofPath? (path : String) : Option Route :=
  if path = mutatingPath then some .mutating
  else if path = livenessPath ∨ path = readinessPath then some .probe
  else none

def Route.allows : Route → List String
  | mutating => ["POST"]
  | probe => ["GET", "HEAD"]

namespace Response

def lengthHeader (body : String) : String × String :=
  ("content-length", Nat.repr body.utf8ByteSize)

def ofText (status : Nat) (body : String) : Response :=
  ⟨status, [lengthHeader body, ("content-type", "text/plain; charset=utf-8")], body⟩

def ofJsonText (body : String) : Response :=
  ⟨200, [lengthHeader body, ("content-type", "application/json")], body⟩

/-- The server itself has failed; why is for the log alone. -/
def failure : Response :=
  let fault : Json :=
    .object [("message", .text "Something went wrong"), ("status", Json.natural 500)]
  { ofJsonText fault.compact with status := 500 }

def methodNotAllowed (route : Route) : Response :=
  ⟨405, [("allow", ",".intercalate route.allows), lengthHeader ""], ""⟩

/-- Only a target without a path is told the length of the empty body. -/
def notFound (target : Target) : Response :=
  ⟨404, if target.path.toList.head? == some '/' then [] else [lengthHeader ""], ""⟩

def headOnly (response : Response) : Response := { response with body := "" }

end Response

/-- The text of the first content type, empty if there is none or it is not plain text. -/
def contentType (headers : Headers) : String :=
  ((headers.first? "content-type").bind Headers.text?).getD ""

def checkContentType (headers : Headers) : Except GatewayError Unit :=
  let found := contentType headers
  if isJsonType found then .ok () else .error (.unsupportedContentType found)

def unwritten (error : GatewayError) (before : List Event) : Event where
  level := .error
  target := "mutating_webhook_server::api::handlers"
  message := error.message
  fields := []
  context :=
    match before.getLast? with
    | some event => event.context
    | none => []

def hostFact (host : String) : NamedFields := [("host", .text host)]

def tooLargeText : String := "Failed to buffer the request body: length limit exceeded"

def tooLarge : Event where
  level := .trace
  target := "axum::rejection"
  message := "rejecting request"
  fields :=
    [("status", .natural 413), ("body", .text tooLargeText),
      ("rejection_type", .text "axum_core::extract::rejection::LengthLimitError")]

/-- The response when all is well but for the server itself. -/
def delivered (written : Logged (Except GatewayError String)) : Logged Response :=
  match written.value with
  | .ok text => ⟨.ofJsonText text, written.events⟩
  | .error error => ⟨.failure, written.events ++ [unwritten error written.events]⟩

def mutate (host : String) (handler : Handler) (request : Request) : Logged Response :=
  if request.body.length > maxBody then
    ⟨.ofText 413 tooLargeText, [tooLarge]⟩
  else
    Logged.within (hostFact host)
      (delivered
        (match checkContentType request.headers with
        | .ok () => Gateway.process handler request.body
        | .error error => Gateway.refuse error))

theorem mutate_eq (host : String) (handler : Handler) (request : Request) :
    mutate host handler request =
      if request.body.length > maxBody then ⟨.ofText 413 tooLargeText, [tooLarge]⟩
      else
        Logged.within (hostFact host)
          ((match checkContentType request.headers with
            | .ok () => Gateway.serve handler request.body
            | .error error => Gateway.reject error).map .ofJsonText) := by
  rw [mutate]
  congr 2
  cases checkContentType request.headers with
  | ok accepted => simp only [delivered, Gateway.value_process]; rfl
  | error error => simp only [delivered, Gateway.value_refuse]; rfl

def respond (host : String) (handler : Handler) (request : Request) : Logged Response :=
  match Route.ofPath? request.target.path with
  | none => Logged.quiet (.notFound request.target)
  | some route =>
    if request.method ∈ route.allows then
      match route with
      | .mutating => mutate host handler request
      | .probe =>
        let response := Response.ofText 200 "ok"
        Logged.quiet (if request.method = "HEAD" then response.headOnly else response)
    else Logged.quiet (.methodNotAllowed route)

end PodWebhook.Http
