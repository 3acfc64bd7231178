import PodWebhook.Admission.Kind
import PodWebhook.Kubernetes.Record
import PodWebhook.Schema.Reader
import PodWebhook.Text.Quoted

/-!
The status with which an API server refuses a request, and how it is told.
-/

namespace PodWebhook.Cluster

open Schema

def listMeta : Shape :=
  Kubernetes.object "ListMeta"
    [Kubernetes.maybe "continue" .text, Kubernetes.maybe "remainingItemCount" (.int .i64),
      Kubernetes.maybe "resourceVersion" .text, Kubernetes.maybe "selfLink" .text]

def statusCause : Shape :=
  .record .plain "StatusCause"
    [("reason", .filled, .text), ("message", .filled, .text), ("field", .filled, .text)]

def statusDetails : Shape :=
  .record .plain "StatusDetails"
    [("name", .filled, .text), ("group", .filled, .text), ("kind", .filled, .text),
      ("uid", .filled, .text), ("causes", .filled, .list statusCause),
      ("retryAfterSeconds", .filled, .int .u32)]

def statusShape : Shape :=
  .record .plain "Status"
    [("status", .optional, .variant ["Success", "Failure"]), ("code", .filled, .int .u16),
      ("message", .filled, .text), ("metadata", .optional, listMeta), ("reason", .filled, .text),
      ("details", .optional, statusDetails)]

structure Status where
  summary : Option String
  code : Nat
  message : String
  metadata : Option Fields
  reason : String
  details : Option Fields
  deriving Repr

namespace Status

def ofFields (fields : Fields) : Status where
  summary := fields.text? "status"
  code := ((fields.int? "code").getD 0).toNat
  message := fields.text "message"
  metadata := fields.record? "metadata"
  reason := fields.text "reason"
  details := fields.record? "details"

def ofDatum : Datum → Status
  | .record fields => ofFields fields
  | _ => ofFields []

/-- A body that is no status is told as the message of one. -/
def ofBody (code : Nat) (body : String) : Status :=
  ⟨some "Failure", code, body, none, "Failed to parse error data", none⟩

def optionText (text : Option String) : String :=
  match text with
  | some text => "Some(" ++ text ++ ")"
  | none => "None"

def block (name : String) (fields : List (String × String)) : String :=
  name ++ " \x7b " ++ ", ".intercalate (fields.map fun f => f.1 ++ ": " ++ f.2) ++ " \x7d"

def quotedField (name : String) (fields : Fields) : String := Text.quoted (fields.text name)

def quotedOption (name : String) (fields : Fields) : String :=
  optionText ((fields.text? name).map Text.quoted)

def metadataText (fields : Fields) : String :=
  block "ListMeta"
    [("continue_", quotedOption "continue" fields),
      ("remaining_item_count",
        optionText ((fields.int? "remainingItemCount").map fun n => toString n)),
      ("resource_version", quotedOption "resourceVersion" fields),
      ("self_link", quotedOption "selfLink" fields)]

def causeText : Datum → String
  | .record fields =>
    block "StatusCause"
      [("reason", quotedField "reason" fields), ("message", quotedField "message" fields),
        ("field", quotedField "field" fields)]
  | _ => ""

def detailsText (fields : Fields) : String :=
  block "StatusDetails"
    [("name", quotedField "name" fields), ("group", quotedField "group" fields),
      ("kind", quotedField "kind" fields), ("uid", quotedField "uid" fields),
      ("causes", "[" ++ ", ".intercalate ((fields.list "causes").map causeText) ++ "]"),
      ("retry_after_seconds", toString ((fields.int? "retryAfterSeconds").getD 0))]

def describe (s : Status) : String :=
  block "Status"
    [("status", optionText s.summary), ("code", Nat.repr s.code),
      ("message", Text.quoted s.message), ("metadata", optionText (s.metadata.map metadataText)),
      ("reason", Text.quoted s.reason), ("details", optionText (s.details.map detailsText))]

end Status

end PodWebhook.Cluster
