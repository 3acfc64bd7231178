import PodWebhook.Admission.Request
import PodWebhook.Json.Patch
import PodWebhook.Json.Writer
import PodWebhook.Text.Base64

/-!
Admission responses: whether a request may go on, and the patch to be made first. A patch travels as
base64 of its text, and its type is named exactly when it is there. A request that cannot be dealt
with is refused with the reason.
-/

namespace PodWebhook

open Schema

inductive MutationError where
  | kindMismatch (expected actual : GroupVersionKind)
  | decode (reason : String)
  | encode (reason : String)
  deriving DecidableEq, Repr

namespace MutationError

def message : MutationError → String
  | kindMismatch expected actual =>
    "expected " ++ expected.display ++ " but request declares " ++ actual.display
  | decode reason => "cannot decode Pod: " ++ reason
  | encode reason => "cannot encode Pod: " ++ reason

def statusCode : MutationError → UInt16
  | kindMismatch .. => 400
  | decode _ => 400
  | encode _ => 500

end MutationError

inductive PatchType where
  | jsonPatch
  deriving DecidableEq, Repr, Inhabited

structure AdmissionStatus where
  message : Option String
  code : Option UInt16
  deriving DecidableEq, Repr, Inhabited

structure AdmissionResponse where
  uid : String
  allowed : Bool
  patchType : Option PatchType
  patch : Option String
  status : Option AdmissionStatus
  deriving DecidableEq, Repr

instance : Inhabited AdmissionResponse := ⟨⟨"", false, none, none, none⟩⟩

namespace AdmissionStatus

def shape : Shape :=
  .record .plain "AdmissionResponseStatus"
    [("message", .optional, .text), ("code", .optional, .int .u16)]

def ofFields (fields : Fields) : AdmissionStatus :=
  ⟨fields.text? "message", (fields.int? "code").map fun n => UInt16.ofNat n.toNat⟩

def toDatum (s : AdmissionStatus) : Datum :=
  .record
    (Fields.maybe "message" (s.message.map .text) ++
      Fields.maybe "code" (s.code.map fun n => .int n.toNat))

end AdmissionStatus

namespace AdmissionResponse

def blank : AdmissionResponse := default

def allow (uid : String) : AdmissionResponse := ⟨uid, true, none, none, none⟩

def reject (uid message : String) (code : UInt16) : AdmissionResponse :=
  ⟨uid, false, none, none, some ⟨some message, some code⟩⟩

def ofError (uid : String) (error : MutationError) : AdmissionResponse :=
  reject uid error.message error.statusCode

/-- Attaches a patch in place of any other; an empty patch is no patch. -/
def attach (response : AdmissionResponse) (patch : Json.Patch) :
    Except MutationError AdmissionResponse :=
  if patch.isEmpty then .ok { response with patchType := none, patch := none }
  else
    match (Datum.json patch.toJson).write with
    | .ok value =>
      .ok
        { response with
          patchType := some .jsonPatch
          patch := some (Base64.encode (Bytes.utf8 value.compact)) }
    | .error reason => .error (.encode reason)

/-- The response with its patch, or as it is if the patch cannot be written. -/
def withPatch (response : AdmissionResponse) (patch : Json.Patch) : AdmissionResponse :=
  match response.attach patch with
  | .ok response => response
  | .error _ => response

theorem withPatch_eq (response : AdmissionResponse) (patch : Json.Patch) :
    response.withPatch patch =
      if patch.isEmpty then { response with patchType := none, patch := none }
      else
        { response with
          patchType := some .jsonPatch
          patch := some (Base64.encode (Bytes.utf8 patch.toJson.compact)) } := by
  rw [withPatch, attach, Datum.write_eq]
  cases patch.isEmpty <;> rfl

theorem attach_eq (response : AdmissionResponse) (patch : Json.Patch) :
    response.attach patch = .ok (response.withPatch patch) := by
  rw [withPatch_eq, attach, Datum.write_eq]
  cases patch.isEmpty <;> rfl

def shape : Shape :=
  .record .plain "AdmissionResponse"
    [("uid", .required, .text), ("allowed", .required, .bool),
      ("patchType", .optional, .variant ["JSONPatch"]), ("patch", .optional, .text),
      ("status", .optional, AdmissionStatus.shape)]

def ofFields (fields : Fields) : AdmissionResponse where
  uid := fields.text "uid"
  allowed := (fields.bool? "allowed").getD false
  patchType := (fields.text? "patchType").map fun _ => .jsonPatch
  patch := fields.text? "patch"
  status := (fields.record? "status").map AdmissionStatus.ofFields

def toDatum (r : AdmissionResponse) : Datum :=
  .record
    ([("uid", .text r.uid), ("allowed", .bool r.allowed)] ++
      Fields.maybe "patchType" (r.patchType.map fun _ => .text "JSONPatch") ++
      Fields.maybe "patch" (r.patch.map .text) ++
      Fields.maybe "status" (r.status.map (·.toDatum)))

def ofDatum : Datum → AdmissionResponse
  | .record fields => ofFields fields
  | _ => blank

def ofBytes (bytes : Bytes) : Result AdmissionResponse :=
  (shape.readDocument (Json.Document.ofBytes bytes)).map ofDatum

def patchText? (r : AdmissionResponse) : Option String :=
  r.patch.bind fun encoded => (Base64.decode? encoded).bind Bytes.text?

end AdmissionResponse

structure AdmissionAnswer where
  kind : Option String
  apiVersion : Option String
  response : AdmissionResponse
  deriving DecidableEq, Repr

namespace AdmissionAnswer

def ofResponse (response : AdmissionResponse) : AdmissionAnswer :=
  ⟨some "AdmissionReview", some "admission.k8s.io/v1", response⟩

def shape : Shape :=
  .record .plain "AdmissionReviewResponse"
    [("kind", .optional, .text), ("apiVersion", .optional, .text),
      ("response", .required, AdmissionResponse.shape)]

def ofFields (fields : Fields) : AdmissionAnswer where
  kind := fields.text? "kind"
  apiVersion := fields.text? "apiVersion"
  response := AdmissionResponse.ofFields ((fields.record? "response").getD [])

def ofDatum : Datum → AdmissionAnswer
  | .record fields => ofFields fields
  | _ => ofFields []

def toDatum (a : AdmissionAnswer) : Datum :=
  .record
    (Fields.maybe "kind" (a.kind.map .text) ++ Fields.maybe "apiVersion" (a.apiVersion.map .text) ++
      [("response", a.response.toDatum)])

def toText (a : AdmissionAnswer) : String := a.toDatum.toJson.compact

def write (a : AdmissionAnswer) : Except String String := a.toDatum.write.map Json.compact

theorem write_eq (a : AdmissionAnswer) : a.write = .ok a.toText := by
  rw [write, Datum.write_eq]
  rfl

def ofBytes (bytes : Bytes) : Result AdmissionAnswer :=
  (shape.readDocument (Json.Document.ofBytes bytes)).map ofDatum

end AdmissionAnswer

end PodWebhook
