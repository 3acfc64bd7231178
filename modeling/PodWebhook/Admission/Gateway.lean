import PodWebhook.Admission.Mutator

/-!
The gateway: a review comes in as text, a handler sees the request in it, and the answer goes out as
text. What is no review is refused with an answer that has no uid, and no handler sees it. Whatever
is reported between the request and the answer carries the request's data along. No answer fails to
be written (`value_process`).
-/

namespace PodWebhook

inductive GatewayError where
  | transport (reason : String)
  | unsupportedContentType (found : String)
  | encode (reason : String)
  deriving DecidableEq, Repr

namespace GatewayError

def message : GatewayError → String
  | transport reason => "cannot decode AdmissionReview: " ++ reason
  | unsupportedContentType found =>
    "unsupported content type " ++ Text.quoted found ++ ", expected application/json"
  | encode reason => "cannot encode AdmissionReview: " ++ reason

def statusCode : GatewayError → UInt16
  | transport _ => 400
  | unsupportedContentType _ => 400
  | encode _ => 500

end GatewayError

abbrev Handler := AdmissionRequest → Logged AdmissionResponse

namespace AdmissionAnswer

def optionText (text : Option String) : String :=
  match text with
  | some text => "Some(" ++ text ++ ")"
  | none => "None"

def statusText (status : AdmissionStatus) : String :=
  "AdmissionResponseStatus \x7b message: " ++ optionText (status.message.map Text.quoted) ++
    ", code: " ++ optionText (status.code.map fun n => Nat.repr n.toNat) ++ " \x7d"

def responseText (r : AdmissionResponse) : String :=
  "AdmissionResponse \x7b uid: " ++ Text.quoted r.uid ++ ", allowed: " ++
    (if r.allowed then "true" else "false") ++ ", patch_type: " ++
    optionText (r.patchType.map fun _ => "JSONPatch") ++ ", patch: " ++
    optionText (r.patch.map Text.quoted) ++ ", status: " ++ optionText (r.status.map statusText) ++
    " \x7d"

def describe (a : AdmissionAnswer) : String :=
  "AdmissionReviewResponse \x7b kind: " ++ optionText (a.kind.map Text.quoted) ++
    ", api_version: " ++ optionText (a.apiVersion.map Text.quoted) ++ ", response: " ++
    responseText a.response ++ " \x7d"

end AdmissionAnswer

namespace Gateway

def target : String := "mutating_webhook_server::api::gateway"

def requestFacts (r : AdmissionRequest) : NamedFields :=
  [("kind", .text r.kind.kind), ("kind_group", .text r.kind.group),
    ("kind_version", .text r.kind.version), ("name", .text (r.name.getD "")),
    ("namespace", .text (r.namespaceName.getD "")), ("operation", .text r.operation),
    ("request_uid", .text r.uid)]

def statusFacts (status : AdmissionStatus) : NamedFields :=
  (match status.code with
    | some code => [("response_code", .natural code.toNat)]
    | none => []) ++
    match status.message with
    | some message => [("response_message", .text message)]
    | none => []

def responseFacts (r : AdmissionResponse) : NamedFields :=
  [("allowed", .flag r.allowed), ("mutated", .flag r.patch.isSome)] ++
    match r.status with
    | some status => statusFacts status
    | none => []

def badRequest (error : GatewayError) : Event where
  level := .warn
  target := target
  message := "bad AdmissionReview request"
  fields := [("error", .plain error.message)]

def processed (answer : AdmissionAnswer) : Event where
  level := .debug
  target := target
  message := "admission review processed"
  fields := [("response", .plain answer.describe)]

def encode (response : AdmissionResponse) : Logged (Except GatewayError String) :=
  let answer := AdmissionAnswer.ofResponse response
  ⟨answer.write.mapError .encode, [(processed answer).within (responseFacts response)]⟩

def rejection (error : GatewayError) : AdmissionResponse :=
  AdmissionResponse.reject "" error.message error.statusCode

/-- Refuses a request that no handler has seen. -/
def refuse (error : GatewayError) : Logged (Except GatewayError String) :=
  let encoded := encode (rejection error)
  ⟨encoded.value, badRequest error :: encoded.events⟩

def reply (handler : Handler) (request : AdmissionRequest) :
    Logged (Except GatewayError String) :=
  let response := handler request
  let encoded := encode response.value
  Logged.within (requestFacts request) ⟨encoded.value, response.events ++ encoded.events⟩

def process (handler : Handler) (body : Bytes) : Logged (Except GatewayError String) :=
  match AdmissionReview.ofBytes body with
  | .ok review => reply handler review.request
  | .error mismatch => refuse (.transport (mismatch.describeIn body))

def textOf (written : Except GatewayError String) : String :=
  match written with
  | .ok text => text
  | .error _ => ""

def reject (error : GatewayError) : Logged String := (refuse error).map textOf

def answer (handler : Handler) (request : AdmissionRequest) : Logged String :=
  (reply handler request).map textOf

def serve (handler : Handler) (body : Bytes) : Logged String := (process handler body).map textOf

theorem encode_eq (response : AdmissionResponse) :
    encode response = ⟨.ok (AdmissionAnswer.ofResponse response).toText,
      [(processed (.ofResponse response)).within (responseFacts response)]⟩ := by
  rw [encode, AdmissionAnswer.write_eq]
  rfl

theorem reject_eq (error : GatewayError) :
    reject error = ⟨(AdmissionAnswer.ofResponse (rejection error)).toText,
      badRequest error :: (encode (rejection error)).events⟩ := by
  rw [reject, refuse, encode_eq]
  rfl

theorem answer_eq (handler : Handler) (request : AdmissionRequest) :
    answer handler request = Logged.within (requestFacts request)
      ⟨(AdmissionAnswer.ofResponse (handler request).value).toText,
        (handler request).events ++ (encode (handler request).value).events⟩ := by
  rw [answer, reply, encode_eq]
  rfl

theorem serve_eq (handler : Handler) (body : Bytes) :
    serve handler body =
      match AdmissionReview.ofBytes body with
      | .ok review => answer handler review.request
      | .error mismatch => reject (.transport (mismatch.describeIn body)) := by
  rw [serve, process]
  split <;> rfl

theorem value_reject (error : GatewayError) :
    (reject error).value = (AdmissionAnswer.ofResponse (rejection error)).toText := by
  rw [reject_eq]

theorem value_answer (handler : Handler) (request : AdmissionRequest) :
    (answer handler request).value =
      (AdmissionAnswer.ofResponse (handler request).value).toText := by
  rw [answer_eq]
  rfl

theorem value_refuse (error : GatewayError) : (refuse error).value = .ok (reject error).value := by
  rw [reject, refuse, encode_eq]
  rfl

theorem value_process (handler : Handler) (body : Bytes) :
    (process handler body).value = .ok (serve handler body).value := by
  rw [serve, process]
  split
  · rw [reply, encode_eq]
    rfl
  · exact value_refuse _

end Gateway

end PodWebhook
