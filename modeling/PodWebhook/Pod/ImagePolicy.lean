import PodWebhook.Event
import PodWebhook.Pod.Basic

/-!
The image policy: a Pod that carries a certain label gets a certain image in all containers of a
certain name. Each image that changes is reported.
-/

namespace PodWebhook

structure ImagePolicy where
  labelKey : String
  labelValue : String
  containerName : String
  image : String
  deriving DecidableEq, Repr

namespace ImagePolicy

def standard : ImagePolicy where
  labelKey := "chart"
  labelValue := "azure-service-broker-0.0.1"
  containerName := "open-service-broker-azure"
  image := "eu.gcr.io/kyma-project/external/azure-service-broker:v1.5.0"

instance : Inhabited ImagePolicy := ⟨standard⟩

def selects (policy : ImagePolicy) (pod : Pod) : Bool :=
  match pod.labels with
  | some labels => Keyed.get? policy.labelKey labels == some policy.labelValue
  | none => false

def changes (policy : ImagePolicy) (c : Container) : Bool :=
  c.name == policy.containerName && c.image != some policy.image

def enforce (policy : ImagePolicy) (c : Container) : Container :=
  if policy.changes c then { c with image := some policy.image } else c

@[simp] theorem changes_enforce (policy : ImagePolicy) (c : Container) :
    policy.changes (policy.enforce c) = false := by
  unfold enforce
  split
  · simp [changes]
  · simp_all

theorem enforce_of_not_changes {policy : ImagePolicy} {c : Container}
    (h : policy.changes c = false) : policy.enforce c = c := by
  simp [enforce, h]

@[simp] theorem name_enforce (policy : ImagePolicy) (c : Container) :
    (policy.enforce c).name = c.name := by
  unfold enforce
  split <;> rfl

def apply (policy : ImagePolicy) (pod : Pod) : Pod :=
  if policy.selects pod then
    { pod with
      spec := pod.spec.map fun spec =>
        { spec with containers := spec.containers.map policy.enforce } }
  else pod

@[simp] theorem labels_apply (policy : ImagePolicy) (pod : Pod) :
    (policy.apply pod).labels = pod.labels := by
  unfold apply
  split <;> rfl

@[simp] theorem selects_apply (p q : ImagePolicy) (pod : Pod) :
    p.selects (q.apply pod) = p.selects pod := by
  simp [selects]

theorem apply_apply (policy : ImagePolicy) (pod : Pod) :
    policy.apply (policy.apply pod) = policy.apply pod := by
  by_cases h : policy.selects pod
  · rw [apply, selects_apply, if_pos h, apply, if_pos h]
    cases pod.spec <;> simp [Function.comp_def, enforce_of_not_changes]
  · rw [apply, selects_apply, if_neg h]

def changed (policy : ImagePolicy) (pod : Pod) : List Container :=
  if policy.selects pod then
    match pod.spec with
    | some spec => spec.containers.filter policy.changes
    | none => []
  else []

def replacement (policy : ImagePolicy) (c : Container) : Event where
  level := .debug
  target := "pod_mutator::mutation"
  message := "replacing container image"
  fields :=
    [("container", .text c.name), ("from", .text (c.image.getD "")), ("to", .text policy.image)]

/-- `apply`, with a report of each image that changes. -/
def run (policy : ImagePolicy) (pod : Pod) : Logged Pod :=
  ⟨policy.apply pod, (policy.changed pod).map policy.replacement⟩

end ImagePolicy

end PodWebhook
