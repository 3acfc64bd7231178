import PodWebhook.Proofs.Admission.Answers
import PodWebhook.Proofs.Admission.Carrying

/-!
What an answer depends on. Of a review about a Pod the answer tells the uid, whether the Pod carries
the label of the policy, and the names and images of its containers. Two reviews that agree on these
have the same answer, however they are written and whatever else is in them.
-/

namespace PodWebhook

open Schema

def Pod.images (pod : Pod) : List (String × Option String) :=
  pod.containers.map fun c => (c.name, c.image)

namespace AdmissionReview

theorem tidy_of_asksFor {body : Bytes} {review : AdmissionReview} {pod : Pod}
    (decodes : ofBytes body = .ok review) (h : review.request.AsksFor pod) : pod.Tidy := by
  obtain ⟨object, carries, read⟩ := h.reads
  exact Pod.tidy_of_ofJson (ordered_of_ofBytes decodes (.inl carries)) read

end AdmissionReview

namespace ImagePolicy

theorem diff_congr (policy : ImagePolicy) {pod other : Pod} (tidy : pod.Tidy)
    (tidyOther : other.Tidy) (selects : policy.selects pod = policy.selects other)
    (images : pod.images = other.images) :
    Json.diff pod.toJson (policy.apply pod).toJson =
      Json.diff other.toJson (policy.apply other).toJson := by
  rw [policy.diff_apply tidy, policy.diff_apply tidyOther, selects,
    policy.operations_congr images 0]

end ImagePolicy

namespace Gateway

/-- The same text goes out for two bodies that agree on the uid, on whether the label is there and
on the names and images of the containers. -/
theorem serve_agrees (policy : ImagePolicy) {body body' : Bytes} {review review' : AdmissionReview}
    {pod pod' : Pod} (decodes : AdmissionReview.ofBytes body = .ok review)
    (decodes' : AdmissionReview.ofBytes body' = .ok review')
    (asks : review.request.AsksFor pod) (asks' : review'.request.AsksFor pod')
    (uid : review.request.uid = review'.request.uid)
    (label : policy.selects pod = policy.selects pod') (images : pod.images = pod'.images) :
    (serve policy.handle body).value = (serve policy.handle body').value := by
  -- what is read keeps its keys in order, so that the rest of a Pod does not differ from itself
  have tidy := AdmissionReview.tidy_of_asksFor decodes asks
  have tidy' := AdmissionReview.tidy_of_asksFor decodes' asks'
  rw [value_serve decodes, value_serve decodes', policy.handle_of_asksFor asks,
    policy.handle_of_asksFor asks', uid, policy.diff_congr tidy tidy' label images]

theorem serve_agrees_across_forms :
    let policy : ImagePolicy := ⟨"app", "web", "main", "img:2"⟩
    let pod (labels : List (String × Json)) (fields : List (String × Json)) : Json :=
      .object [("metadata", .object [("labels", .object (("app", .text "web") :: labels))]),
        ("spec", .object (("containers", .array [.object
          [("image", .text "img:1"), ("name", .text "main")]]) :: fields))]
    let kind : Json := .array [.text "", .text "v1", .text "Pod"]
    let resource : Json := .array [.text "", .text "v1", .text "pods"]
    let first : Json := .object [("apiVersion", .text "v1"), ("request", .object
      [("dryRun", .bool true), ("kind", kind), ("namespace", .text "here"),
        ("object", pod [] [("hostNetwork", .bool true)]), ("oldObject", .object []),
        ("operation", .text "UPDATE"), ("resource", resource), ("uid", .text "u")])]
    let second : Json := .array [.text "AdmissionReview", .null, .array
      [.text "u", kind, resource, .text "status", .null, .null, .text "there", .null,
        .text "CREATE", .object [("username", .text "someone")],
        pod [("tier", .text "back")] [("unknown", .number (.int 7))], .null, .null]]
    (serve policy.handle (Bytes.utf8 first.compact)).value =
      (serve policy.handle (Bytes.utf8 second.compact)).value := by
  intro policy pod kind resource first second
  have integral : first.Integral ∧ second.Integral := by
    constructor <;> simp [first, second, pod, kind, resource, Json.Integral, Json.IntegralMembers,
      Json.IntegralItems, Json.Number.fits]
  have ordered : (pod [] [("hostNetwork", .bool true)]).Ordered ∧
      (pod [("tier", .text "back")] [("unknown", .number (.int 7))]).Ordered := by decide +kernel
  obtain ⟨review, p, decodes, asks, uid, selected, images⟩ : ∃ review p,
      AdmissionReview.ofBytes (Bytes.utf8 first.compact) = .ok review ∧
        review.request.AsksFor p ∧ review.request.uid = "u" ∧
        policy.selects p = true ∧ p.images = [("main", some "img:1")] :=
    ⟨_, _, AdmissionReview.ofBytes_compact integral.1 (by decide +kernel) rfl,
      ⟨rfl, _, congrArg some (Json.sorted_of_ordered _ ordered.1), rfl⟩, rfl,
      (ImagePolicy.selects_iff ordered.1 rfl).mpr rfl, by decide +kernel⟩
  obtain ⟨review', p', decodes', asks', uid', selected', images'⟩ : ∃ review p,
      AdmissionReview.ofBytes (Bytes.utf8 second.compact) = .ok review ∧
        review.request.AsksFor p ∧ review.request.uid = "u" ∧
        policy.selects p = true ∧ p.images = [("main", some "img:1")] :=
    ⟨_, _, AdmissionReview.ofBytes_compact integral.2 (by decide +kernel) rfl,
      ⟨rfl, _, congrArg some (Json.sorted_of_ordered _ ordered.2), rfl⟩, rfl,
      (ImagePolicy.selects_iff ordered.2 rfl).mpr rfl, by decide +kernel⟩
  exact serve_agrees policy decodes decodes' asks asks' (uid.trans uid'.symm)
    (selected.trans selected'.symm) (images.trans images'.symm)

end Gateway

end PodWebhook
