import PodWebhook.Admission.Request
import PodWebhook.Proofs.Pod.Patches
import PodWebhook.Proofs.Schema.Writing

/-!
What becomes of an object on admission. Whoever asked takes the patch out of the response, applies
it to the object of the request, and has the object as the policy wants it. Objects are maps with
their keys in order, as everything is that is read into a request.
-/

namespace PodWebhook

open Schema

namespace AdmissionResponse

def operations? (response : AdmissionResponse) : Option Json.Patch :=
  match response.patch with
  | none => some []
  | some encoded => do
    let bytes ← Base64.decode? encoded
    let value ← (Json.parse bytes).toOption
    Json.Patch.ofJson? value

theorem operations?_withPatch (response : AdmissionResponse) {patch : Json.Patch}
    (portable : ∀ op ∈ patch, op.Portable) :
    (response.withPatch patch).operations? = some patch := by
  rw [withPatch_eq]
  split
  · next empty =>
    rw [List.isEmpty_iff.mp empty]
    rfl
  · simp only [operations?, Base64.decode?_encode, Json.Patch.parse_compact_toJson portable,
      Except.toOption, Option.bind_eq_bind, Option.bind_some, Json.Patch.ofJson?_sorted portable]

/-- The object after the patch of the response, if it has one and the patch applies. -/
def patched? (response : AdmissionResponse) (object : Json) : Option Json :=
  match response.patch with
  | none => some object
  | some encoded => do
    let bytes ← Base64.decode? encoded
    let value ← (Json.parse bytes).toOption
    let patch ← Json.Patch.ofJson? value
    patch.run? object

theorem patched?_eq_bind (response : AdmissionResponse) (object : Json) :
    response.patched? object = response.operations?.bind fun patch => patch.run? object := by
  rw [patched?, operations?]
  cases response.patch with
  | none => rfl
  | some encoded => simp only [Option.bind_eq_bind, Option.bind_assoc]

theorem patched?_withPatch (response : AdmissionResponse) {patch : Json.Patch}
    (portable : ∀ op ∈ patch, op.Portable) (object : Json) :
    (response.withPatch patch).patched? object = patch.run? object := by
  rw [patched?_eq_bind, operations?_withPatch response portable, Option.bind_some]

end AdmissionResponse

namespace ImagePolicy

theorem patchFor_of_pod (policy : ImagePolicy) {request : AdmissionRequest} {object : Json}
    {pod : Pod} (kind : request.kind = GroupVersionKind.pod)
    (carries : request.object = some object) (read : Pod.ofJson object = .ok pod) :
    (policy.patchFor request).value =
      .ok (Json.diff pod.toJson (policy.apply pod).toJson) := by
  have agrees : request.kind.agrees GroupVersionKind.pod = true :=
    GroupVersionKind.agrees_iff.mpr kind
  simp only [patchFor, agrees, if_true, podOf, carries, read, patchOf_eq, run]

theorem handle_of_pod (policy : ImagePolicy) {request : AdmissionRequest} {object : Json}
    {pod : Pod} (kind : request.kind = GroupVersionKind.pod)
    (carries : request.object = some object) (read : Pod.ofJson object = .ok pod) :
    (policy.handle request).value = (AdmissionResponse.allow request.uid).withPatch
      (Json.diff pod.toJson (policy.apply pod).toJson) := by
  have patch := policy.patchFor_of_pod kind carries read
  simp only [handle, patch, Except.bind, AdmissionResponse.attach_eq]

theorem patched?_handle (policy : ImagePolicy) {request : AdmissionRequest} {object : Json}
    {pod : Pod} (kind : request.kind = GroupVersionKind.pod)
    (carries : request.object = some object) (ordered : object.Ordered)
    (read : Pod.ofJson object = .ok pod) :
    (policy.handle request).value.patched? object = some (policy.rewrite object) := by
  rw [policy.handle_of_pod kind carries read, AdmissionResponse.patched?_withPatch _
    (policy.portable_diff (Pod.tidy_of_ofJson ordered read)), policy.run?_diff ordered read]

/-- Whoever makes the patch of the response has the object with the image at each target, and as it
was everywhere else. -/
theorem handle_rewrites_object (policy : ImagePolicy) {request : AdmissionRequest} {object : Json}
    {pod : Pod} (kind : request.kind = GroupVersionKind.pod)
    (carries : request.object = some object) (ordered : object.Ordered)
    (read : Pod.ofJson object = .ok pod) :
    ∃ result, (policy.handle request).value.patched? object = some result ∧
      result = policy.rewrite object ∧
      (∀ index, policy.Targets object index →
        result.follow? (Pod.imagePath index).steps = some (.text policy.image)) ∧
      ∀ steps, (∀ index, policy.Targets object index →
        Json.Apart steps (Pod.imagePath index).steps) →
          result.follow? steps = object.follow? steps := by
  refine ⟨policy.rewrite object, policy.patched?_handle kind carries ordered read, rfl, ?_, ?_⟩
  · exact fun index target => follow?_rewrite_image ordered read target
  · exact fun steps apart => follow?_rewrite_of_apart ordered apart

theorem handle_rewrites_two_containers :
    let policy : ImagePolicy := ⟨"app", "web", "main", "img:2"⟩
    let object (first second : Json) : Json :=
      .object [("extra", .null), ("metadata", .object [("labels", .object [("app", .text "web")])]),
        ("spec", .object [("containers", .array [
          .object [("image", first), ("name", .text "main"), ("unknown", .bool true)],
          .object [("image", second), ("name", .text "main")],
          .object [("name", .text "side")]])])]
    let request : AdmissionRequest :=
      ⟨"u", .pod, ⟨"", "v1", "pods"⟩, none, none, none, none, none, "CREATE", [],
        some (object (.text "img:1") .null), none, none⟩
    (policy.handle request).value.patched? (object (.text "img:1") .null) =
      some (object (.text "img:2") (.text "img:2")) := by
  intro policy object request
  have ordered : (object (.text "img:1") .null).Ordered := by decide +kernel
  have read : ∃ pod, Pod.ofJson (object (.text "img:1") .null) = .ok pod := ⟨_, rfl⟩
  obtain ⟨pod, read⟩ := read
  obtain ⟨result, patched, same, -⟩ :=
    @handle_rewrites_object policy request _ pod rfl rfl ordered read
  have rewritten : policy.rewrite (object (.text "img:1") .null) =
      object (.text "img:2") (.text "img:2") := rfl
  rw [patched, same, rewritten]

/-- What is read after the patch is the Pod that the policy makes of what was read before it. -/
theorem ofJson_patched (policy : ImagePolicy) {request : AdmissionRequest} {object : Json}
    {pod : Pod} (kind : request.kind = GroupVersionKind.pod)
    (carries : request.object = some object) (ordered : object.Ordered)
    (read : Pod.ofJson object = .ok pod) :
    ∃ patch result, (policy.patchFor request).value = .ok patch ∧
      Json.Patch.run? object patch = some result ∧
      Pod.ofJson result = .ok (policy.run pod).value :=
  ⟨_, _, policy.patchFor_of_pod kind carries read, policy.run?_diff ordered read,
    ofJson_rewrite ordered read⟩

theorem ofJson_patched_null_image :
    let policy : ImagePolicy := ⟨"app", "web", "main", "img:2"⟩
    let object : Json :=
      .object [("metadata", .object [("labels", .object [("app", .text "web")])]),
        ("spec", .object [("containers", .array [
          .object [("image", .null), ("name", .text "main")],
          .object [("image", .text "img:1"), ("name", .null)]]), ("unknown", .bool true)])]
    let request : AdmissionRequest :=
      ⟨"u", .pod, ⟨"", "v1", "pods"⟩, none, none, none, none, none, "CREATE", [], some object, none,
        none⟩
    ∃ patch result pod, (policy.patchFor request).value = .ok patch ∧
      Json.Patch.run? object patch = some result ∧ Pod.ofJson result = .ok pod ∧
      pod.containers.map (fun c => (c.name, c.image)) =
        [("main", some "img:2"), ("", some "img:1")] := by
  intro policy object request
  have ordered : object.Ordered := by decide +kernel
  obtain ⟨pod, read, containers⟩ : ∃ pod, Pod.ofJson object = .ok pod ∧
      (policy.run pod).value.containers.map (fun c => (c.name, c.image)) =
        [("main", some "img:2"), ("", some "img:1")] := ⟨_, rfl, by decide +kernel⟩
  obtain ⟨patch, result, made, run, after⟩ :=
    @ofJson_patched policy request _ pod rfl rfl ordered read
  exact ⟨patch, result, _, made, run, after, containers⟩

end ImagePolicy

end PodWebhook
