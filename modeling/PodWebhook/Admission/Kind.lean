import PodWebhook.Schema.Datum
import PodWebhook.Schema.Shape

/-!
What kind of object a request is about: group, version and kind, and the resource beside it.
-/

namespace PodWebhook

open Schema

structure GroupVersionKind where
  group : String
  version : String
  kind : String
  deriving DecidableEq, Repr, Inhabited

namespace GroupVersionKind

/-- The three parts are compared as they are; versions are not negotiated. -/
def agrees (a b : GroupVersionKind) : Bool :=
  a.group == b.group && a.version == b.version && a.kind == b.kind

theorem agrees_iff {a b : GroupVersionKind} : a.agrees b = true ↔ a = b := by
  cases a; cases b
  simp [agrees, and_assoc]

/-- The core group has no name. -/
def apiVersion (k : GroupVersionKind) : String :=
  if k.group.isEmpty then k.version else k.group ++ "/" ++ k.version

def display (k : GroupVersionKind) : String :=
  k.apiVersion ++ ", Kind=" ++ k.kind

def pod : GroupVersionKind := ⟨"", "v1", "Pod"⟩

def known : List GroupVersionKind :=
  [pod, ⟨"", "v1", "Namespace"⟩, ⟨"", "v1", "Service"⟩, ⟨"apps", "v1", "Deployment"⟩,
    ⟨"policy", "v1", "PodDisruptionBudget"⟩, ⟨"rbac.authorization.k8s.io", "v1", "ClusterRole"⟩]

def shape : Shape :=
  .record .plain "GroupVersionKind"
    [("group", .required, .text), ("version", .required, .text), ("kind", .required, .text)]

def ofFields (fields : Fields) : GroupVersionKind :=
  ⟨fields.text "group", fields.text "version", fields.text "kind"⟩

def toDatum (k : GroupVersionKind) : Datum :=
  .record [("group", .text k.group), ("version", .text k.version), ("kind", .text k.kind)]

end GroupVersionKind

structure GroupVersionResource where
  group : String
  version : String
  resource : String
  deriving DecidableEq, Repr, Inhabited

namespace GroupVersionResource

def shape : Shape :=
  .record .plain "GroupVersionResource"
    [("group", .required, .text), ("version", .required, .text), ("resource", .required, .text)]

def ofFields (fields : Fields) : GroupVersionResource :=
  ⟨fields.text "group", fields.text "version", fields.text "resource"⟩

def toDatum (r : GroupVersionResource) : Datum :=
  .record
    [("group", .text r.group), ("version", .text r.version), ("resource", .text r.resource)]

end GroupVersionResource

end PodWebhook
