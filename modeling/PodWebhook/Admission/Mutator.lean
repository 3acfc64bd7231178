import PodWebhook.Admission.Response
import PodWebhook.Json.Diff
import PodWebhook.Pod.ImagePolicy

/-!
The answer to a request about a Pod: the patch that the image policy asks for, or the reason why
there is none. The patch is the difference between the Pod as it was read and the Pod as it should
be.
-/

namespace PodWebhook

open Schema

namespace ImagePolicy

def podOf (request : AdmissionRequest) : Except MutationError Pod :=
  match request.object with
  | none => .error (.decode "there is no content to decode")
  | some object =>
    match Pod.ofJson object with
    | .ok pod => .ok pod
    | .error mismatch => .error (.decode mismatch.describe)

def jsonOf (pod : Pod) : Except MutationError Json := pod.toDatum.write.mapError .encode

theorem jsonOf_eq (pod : Pod) : jsonOf pod = .ok pod.toJson := by
  rw [jsonOf, Datum.write_eq]
  rfl

def patchOf (policy : ImagePolicy) (pod : Pod) : Logged (Except MutationError Json.Patch) :=
  match jsonOf pod with
  | .error error => ⟨.error error, []⟩
  | .ok before =>
    let changed := policy.run pod
    match jsonOf changed.value with
    | .error error => ⟨.error error, changed.events⟩
    | .ok after => ⟨.ok (Json.diff before after), changed.events⟩

theorem patchOf_eq (policy : ImagePolicy) (pod : Pod) :
    policy.patchOf pod =
      ⟨.ok (Json.diff pod.toJson (policy.run pod).value.toJson), (policy.run pod).events⟩ := by
  simp only [patchOf, jsonOf_eq]

/-- The patch for a request. Other kinds are refused before their object is looked at. -/
def patchFor (policy : ImagePolicy) (request : AdmissionRequest) :
    Logged (Except MutationError Json.Patch) :=
  if request.kind.agrees GroupVersionKind.pod then
    match podOf request with
    | .error error => ⟨.error error, []⟩
    | .ok pod => policy.patchOf pod
  else ⟨.error (.kindMismatch GroupVersionKind.pod request.kind), []⟩

def handlerTarget : String := "pod_mutator::handler"

def allowedEvent (response : AdmissionResponse) : Event where
  level := .info
  target := handlerTarget
  message := "admission request allowed"
  fields := [("uid", .text response.uid), ("mutated", .flag response.patch.isSome)]

def rejectedEvent (request : AdmissionRequest) (error : MutationError) : Event where
  level := .warn
  target := handlerTarget
  message := "admission request rejected"
  fields :=
    [("uid", .text request.uid), ("kind", .plain request.kind.display),
      ("error", .plain error.message)]

def handle (policy : ImagePolicy) (request : AdmissionRequest) : Logged AdmissionResponse :=
  let patch := policy.patchFor request
  match patch.value.bind (AdmissionResponse.allow request.uid).attach with
  | .ok response => ⟨response, patch.events ++ [allowedEvent response]⟩
  | .error error =>
    ⟨AdmissionResponse.ofError request.uid error, patch.events ++ [rejectedEvent request error]⟩

end ImagePolicy

end PodWebhook
