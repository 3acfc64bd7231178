import PodWebhook.Schema.Shape

/-!
How the records of the Kubernetes API are built. Their fields stand in ascending order of their
names.
-/

namespace PodWebhook.Kubernetes

open Schema

def object (name : String) (fields : List (String × Presence × Shape)) : Shape :=
  .record .object name fields

def maybe (name : String) (shape : Shape) : String × Presence × Shape :=
  (name, .optional, shape)

def always (name : String) (shape : Shape) : String × Presence × Shape :=
  (name, .defaulted, shape)

def quantity : Shape := .numberOrText

end PodWebhook.Kubernetes
