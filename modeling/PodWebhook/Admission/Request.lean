import PodWebhook.Admission.Kind
import PodWebhook.Kubernetes.User
import PodWebhook.Schema.Reader

/-!
Admission requests: what an object should become, who asks for it, and the review that carries the
request. Requests are read from the text of a review or from a value, and written with their fields
in a fixed order, absent ones left out.
-/

namespace PodWebhook

open Schema

structure AdmissionRequest where
  uid : String
  kind : GroupVersionKind
  resource : GroupVersionResource
  subResource : Option String
  requestKind : Option GroupVersionKind
  requestResource : Option GroupVersionResource
  name : Option String
  namespaceName : Option String
  operation : String
  userInfo : Fields
  /-- The object as it would be stored; a deletion has none. -/
  object : Option Json
  oldObject : Option Json
  dryRun : Option Bool
  deriving Repr

namespace AdmissionRequest

def shape : Shape :=
  .record .plain "AdmissionRequest"
    [("uid", .required, .text), ("kind", .required, GroupVersionKind.shape),
      ("resource", .required, GroupVersionResource.shape), ("subResource", .optional, .text),
      ("requestKind", .optional, GroupVersionKind.shape),
      ("requestResource", .optional, GroupVersionResource.shape), ("name", .optional, .text),
      ("namespace", .optional, .text), ("operation", .required, .text),
      ("userInfo", .filled, Kubernetes.userInfo), ("object", .optional, .any),
      ("oldObject", .optional, .any), ("dryRun", .optional, .bool)]

def ofFields (fields : Fields) : AdmissionRequest where
  uid := fields.text "uid"
  kind := GroupVersionKind.ofFields ((fields.record? "kind").getD [])
  resource := GroupVersionResource.ofFields ((fields.record? "resource").getD [])
  subResource := fields.text? "subResource"
  requestKind := (fields.record? "requestKind").map GroupVersionKind.ofFields
  requestResource := (fields.record? "requestResource").map GroupVersionResource.ofFields
  name := fields.text? "name"
  namespaceName := fields.text? "namespace"
  operation := fields.text "operation"
  userInfo := (fields.record? "userInfo").getD []
  object := fields.json? "object"
  oldObject := fields.json? "oldObject"
  dryRun := fields.bool? "dryRun"

def toDatum (r : AdmissionRequest) : Datum :=
  .record
    ([("uid", .text r.uid), ("kind", r.kind.toDatum), ("resource", r.resource.toDatum)] ++
      Fields.maybe "subResource" (r.subResource.map .text) ++
      Fields.maybe "requestKind" (r.requestKind.map (·.toDatum)) ++
      Fields.maybe "requestResource" (r.requestResource.map (·.toDatum)) ++
      Fields.maybe "name" (r.name.map .text) ++
      Fields.maybe "namespace" (r.namespaceName.map .text) ++
      [("operation", .text r.operation), ("userInfo", .record r.userInfo)] ++
      Fields.maybe "object" (r.object.map .json) ++
      Fields.maybe "oldObject" (r.oldObject.map .json) ++
      Fields.maybe "dryRun" (r.dryRun.map .bool))

def ofDatum : Datum → AdmissionRequest
  | .record fields => ofFields fields
  | _ => ofFields []

def ofJson (value : Json) : Result AdmissionRequest :=
  (shape.readJson value).map ofDatum

end AdmissionRequest

structure AdmissionReview where
  kind : Option String
  apiVersion : Option String
  request : AdmissionRequest
  deriving Repr

namespace AdmissionReview

def shape : Shape :=
  .record .plain "AdmissionReviewRequest"
    [("kind", .optional, .text), ("apiVersion", .optional, .text),
      ("request", .required, AdmissionRequest.shape)]

def ofFields (fields : Fields) : AdmissionReview where
  kind := fields.text? "kind"
  apiVersion := fields.text? "apiVersion"
  request := AdmissionRequest.ofFields ((fields.record? "request").getD [])

def ofDatum : Datum → AdmissionReview
  | .record fields => ofFields fields
  | _ => ofFields []

def toDatum (r : AdmissionReview) : Datum :=
  .record
    (Fields.maybe "kind" (r.kind.map .text) ++ Fields.maybe "apiVersion" (r.apiVersion.map .text) ++
      [("request", r.request.toDatum)])

def ofBytes (bytes : Bytes) : Result AdmissionReview :=
  (shape.readDocument (Json.Document.ofBytes bytes)).map ofDatum

end AdmissionReview

end PodWebhook
