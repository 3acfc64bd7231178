import PodWebhook.Kubernetes.Pod
import PodWebhook.Schema.Reader

/-!
Pods as far as the image policy looks at them: labels, containers with their names and images. All
other fields come along as they were read.
-/

namespace PodWebhook

open Schema

structure Container where
  name : String
  image : Option String
  others : Fields
  deriving Repr, Inhabited

structure PodSpec where
  containers : List Container
  others : Fields
  deriving Repr, Inhabited

structure Pod where
  labels : Option (Keyed String)
  /-- The metadata beside the labels. -/
  metadata : Fields
  spec : Option PodSpec
  others : Fields
  deriving Repr, Inhabited

namespace Container

def ofFields (fields : Fields) : Container where
  name := fields.text "name"
  image := fields.text? "image"
  others := Keyed.erase "image" (Keyed.erase "name" fields)

def ofDatum : Datum → Container
  | .record fields => ofFields fields
  | _ => ofFields []

def toDatum (c : Container) : Datum :=
  let fields := Keyed.set "name" (.text c.name) c.others
  match c.image with
  | some image => .record (Keyed.set "image" (.text image) fields)
  | none => .record fields

end Container

namespace PodSpec

def ofFields (fields : Fields) : PodSpec where
  containers := (fields.list "containers").map Container.ofDatum
  others := Keyed.erase "containers" fields

def toDatum (spec : PodSpec) : Datum :=
  .record (Keyed.set "containers" (.list (spec.containers.map Container.toDatum)) spec.others)

end PodSpec

namespace Pod

/-- The texts of a map; its other entries are left out. -/
def textsOf (entries : Keyed Datum) : Keyed String :=
  entries.filterMap fun e =>
    match e.2 with
    | .text s => some (e.1, s)
    | _ => none

def labelsOf (metadata : Fields) : Option (Keyed String) :=
  match Keyed.get? "labels" metadata with
  | some (.map entries) => some (textsOf entries)
  | _ => none

def ofFields (fields : Fields) : Pod :=
  let metadata := (fields.record? "metadata").getD []
  { labels := labelsOf metadata
    metadata := Keyed.erase "labels" metadata
    spec := (fields.record? "spec").map PodSpec.ofFields
    others := Keyed.erase "spec" (Keyed.erase "metadata" fields) }

def ofDatum : Datum → Pod
  | .record fields => ofFields fields
  | _ => ofFields []

def metadataDatum (pod : Pod) : Datum :=
  match pod.labels with
  | some labels =>
    .record (Keyed.set "labels" (.map (labels.map fun l => (l.1, .text l.2))) pod.metadata)
  | none => .record pod.metadata

def toDatum (pod : Pod) : Datum :=
  let fields := Keyed.set "metadata" pod.metadataDatum pod.others
  match pod.spec with
  | some spec => .record (Keyed.set "spec" spec.toDatum fields)
  | none => .record fields

def ofJson (value : Json) : Result Pod :=
  (Kubernetes.pod.readJson value).map ofDatum

def toJson (pod : Pod) : Json := pod.toDatum.toJson

end Pod

end PodWebhook
