import PodWebhook.Proofs.Admission.Patching

/-!
Who is let in. A request is allowed if it is about a Pod and a Pod can be read from it; the policy
has no say in that. Every other request is refused for a reason that does not depend on the policy
either (`Refused`), and there is always one of them (`readable_or_refused`).
-/

namespace PodWebhook

open Schema

namespace AdmissionResponse

structure Allows (uid : String) (r : AdmissionResponse) : Prop where
  uid : r.uid = uid
  allowed : r.allowed = true
  status : r.status = none
  patchType : r.patchType.isSome = r.patch.isSome

structure Denies (uid message : String) (r : AdmissionResponse) : Prop where
  uid : r.uid = uid
  allowed : r.allowed = false
  patch : r.patch = none
  patchType : r.patchType = none
  status : r.status = some ⟨some message, some 400⟩

theorem Allows.not_denies {uid other message : String} {r : AdmissionResponse}
    (h : r.Allows uid) : ¬ r.Denies other message :=
  fun denied => nomatch h.allowed.symm.trans denied.allowed

theorem allows_withPatch (uid : String) (patch : Json.Patch) :
    ((allow uid).withPatch patch).Allows uid := by
  rw [withPatch_eq]
  split <;> exact ⟨rfl, rfl, rfl, rfl⟩

end AdmissionResponse

namespace AdmissionRequest

/-- The request is about a Pod, and this is the Pod in it. -/
structure AsksFor (request : AdmissionRequest) (pod : Pod) : Prop where
  kind : request.kind = .pod
  reads : ∃ object, request.object = some object ∧ Pod.ofJson object = .ok pod

def Readable (request : AdmissionRequest) : Prop := ∃ pod, request.AsksFor pod

/-- Why a request is refused. The kind is looked at first, whatever the object may be. -/
inductive Refused (request : AdmissionRequest) : MutationError → Prop where
  | kind (other : request.kind ≠ .pod) : Refused request (.kindMismatch .pod request.kind)
  | missing (pod : request.kind = .pod) (none : request.object = none) :
      Refused request (.decode "there is no content to decode")
  | malformed (pod : request.kind = .pod) {object : Json} {mismatch : Mismatch}
      (carries : request.object = some object) (unread : Pod.ofJson object = .error mismatch) :
      Refused request (.decode mismatch.describe)

theorem readable_or_refused (request : AdmissionRequest) :
    request.Readable ∨ ∃ error, Refused request error := by
  by_cases kind : request.kind = .pod
  · cases carries : request.object with
    | none => exact .inr ⟨_, .missing kind carries⟩
    | some object =>
        cases read : Pod.ofJson object with
        | ok pod => exact .inl ⟨pod, kind, object, carries, read⟩
        | error mismatch => exact .inr ⟨_, .malformed kind carries read⟩
  · exact .inr ⟨_, .kind kind⟩

theorem Refused.not_readable {request : AdmissionRequest} {error : MutationError}
    (h : Refused request error) : ¬ request.Readable := by
  rintro ⟨pod, kind, object, carries, read⟩
  cases h with
  | kind other => exact other kind
  | missing _ none =>
      rw [none] at carries
      cases carries
  | malformed _ carried unread =>
      obtain rfl := Option.some.inj (carried.symm.trans carries)
      rw [unread] at read
      cases read

theorem Refused.statusCode {request : AdmissionRequest} {error : MutationError}
    (h : Refused request error) : error.statusCode = 400 := by
  cases h <;> rfl

end AdmissionRequest

namespace Pod

/-- The object does not say of itself that it is anything but a Pod of version 1. -/
def DeclaredBy (object : Json) : Prop :=
  ∃ members, object = .object members ∧
    (∀ value ∈ occurrences "apiVersion" members, value = .text "v1") ∧
    ∀ value ∈ occurrences "kind" members, value = .text "Pod"

theorem declaredBy_of_ofJson {object : Json} {pod : Pod} (h : ofJson object = .ok pod) :
    DeclaredBy object := by
  obtain ⟨datum, read, _⟩ := map_eq_ok_iff.mp h
  obtain ⟨members, rfl⟩ := Shape.object_of_readJson read
  have distinct := Shape.distinct_of_ascending _ ascending_pod
  refine ⟨members, rfl, ?_, ?_⟩
  · exact Shape.text_of_fixed distinct read (show ("apiVersion", _, .text) ∈ _ by simp)
  · exact Shape.text_of_fixed distinct read (show ("kind", _, .text) ∈ _ by simp)

end Pod

namespace ImagePolicy

theorem patchFor_of_refused (policy : ImagePolicy) {request : AdmissionRequest}
    {error : MutationError} (h : request.Refused error) :
    (policy.patchFor request).value = .error error := by
  cases h with
  | kind other =>
      have differs : ¬ request.kind.agrees GroupVersionKind.pod = true :=
        mt GroupVersionKind.agrees_iff.mp other
      simp only [patchFor, if_neg differs]
  | missing pod none =>
      have agrees := GroupVersionKind.agrees_iff.mpr pod
      simp only [patchFor, if_pos agrees, podOf, none]
  | malformed pod carries unread =>
      have agrees := GroupVersionKind.agrees_iff.mpr pod
      simp only [patchFor, if_pos agrees, podOf, carries, unread]

theorem handle_of_refused (policy : ImagePolicy) {request : AdmissionRequest}
    {error : MutationError} (h : request.Refused error) :
    (policy.handle request).value = .ofError request.uid error := by
  have patch := policy.patchFor_of_refused h
  simp only [handle, patch, Except.bind]

theorem patchFor_of_asksFor (policy : ImagePolicy) {request : AdmissionRequest} {pod : Pod}
    (h : request.AsksFor pod) : (policy.patchFor request).value =
      .ok (Json.diff pod.toJson (policy.apply pod).toJson) := by
  obtain ⟨object, carries, read⟩ := h.reads
  exact policy.patchFor_of_pod h.kind carries read

theorem handle_of_asksFor (policy : ImagePolicy) {request : AdmissionRequest} {pod : Pod}
    (h : request.AsksFor pod) : (policy.handle request).value =
      (AdmissionResponse.allow request.uid).withPatch
        (Json.diff pod.toJson (policy.apply pod).toJson) := by
  obtain ⟨object, carries, read⟩ := h.reads
  exact policy.handle_of_pod h.kind carries read

theorem allows_of_readable (policy : ImagePolicy) {request : AdmissionRequest}
    (h : request.Readable) : (policy.handle request).value.Allows request.uid := by
  obtain ⟨pod, asks⟩ := h
  rw [policy.handle_of_asksFor asks]
  exact AdmissionResponse.allows_withPatch _ _

theorem denies_of_refused (policy : ImagePolicy) {request : AdmissionRequest}
    {error : MutationError} (h : request.Refused error) :
    (policy.handle request).value.Denies request.uid error.message := by
  rw [policy.handle_of_refused h, AdmissionResponse.ofError, h.statusCode]
  exact ⟨rfl, rfl, rfl, rfl, rfl⟩

theorem uid_handle (policy : ImagePolicy) (request : AdmissionRequest) :
    (policy.handle request).value.uid = request.uid := by
  rcases request.readable_or_refused with readable | ⟨error, refused⟩
  · exact (policy.allows_of_readable readable).uid
  · exact (policy.denies_of_refused refused).uid

/-- A request is allowed if it is about a Pod that can be read, and denied otherwise for what is
wrong with it; no policy changes that. Nothing fails while a patch is written, and an object that
says it is something else gets no patch. -/
theorem handle_verdict (request : AdmissionRequest) :
    ((request.Readable ∧ ∀ policy : ImagePolicy,
        (policy.handle request).value.Allows request.uid ∧
          ∀ message, ¬ (policy.handle request).value.Denies request.uid message) ∨
      (¬ request.Readable ∧ ∃ error, request.Refused error ∧ ∀ policy : ImagePolicy,
        (policy.handle request).value.Denies request.uid error.message ∧
          ¬ (policy.handle request).value.Allows request.uid)) ∧
    (∀ (policy : ImagePolicy) (reason : String),
      (policy.patchFor request).value ≠ .error (.encode reason)) ∧
    (∀ (policy : ImagePolicy) (message : Option String),
      (policy.handle request).value.status ≠ some ⟨message, some 500⟩) ∧
    ∀ policy : ImagePolicy, (policy.handle request).value.patch = none ∨
      ∃ object, request.object = some object ∧ Pod.DeclaredBy object := by
  rcases request.readable_or_refused with readable | ⟨error, refused⟩
  · have allows := fun policy : ImagePolicy => policy.allows_of_readable readable
    refine ⟨.inl ⟨readable, fun policy => ?_⟩, ?_, ?_, ?_⟩
    · exact ⟨allows policy, fun message => (allows policy).not_denies⟩
    · intro policy reason failed
      obtain ⟨pod, asks⟩ := readable
      rw [policy.patchFor_of_asksFor asks] at failed
      cases failed
    · intro policy message failed
      rw [(allows policy).status] at failed
      cases failed
    · obtain ⟨pod, _, object, carries, read⟩ := readable
      exact fun policy => .inr ⟨object, carries, Pod.declaredBy_of_ofJson read⟩
  · have denies := fun policy : ImagePolicy => policy.denies_of_refused refused
    refine ⟨.inr ⟨refused.not_readable, error, refused, fun policy => ?_⟩, ?_, ?_, ?_⟩
    · exact ⟨denies policy, fun allows => allows.not_denies (denies policy)⟩
    · intro policy reason failed
      rw [policy.patchFor_of_refused refused] at failed
      obtain rfl := Except.error.inj failed
      cases refused
    · intro policy message failed
      rw [(denies policy).status] at failed
      cases failed
    · exact fun policy => .inl (denies policy).patch

end ImagePolicy

end PodWebhook
