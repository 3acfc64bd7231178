import PodWebhook.Admission.Request
import PodWebhook.Proofs.Schema.Writing

/-!
What a request carries along: its user and its objects, as they have been read. The objects have
their keys in order and are no deeper than the text allows. None of them is null, for null stands
for a missing member.
-/

namespace PodWebhook

open Schema

variable {raw : Json → Prop}

namespace AdmissionRequest

def Carries (r : AdmissionRequest) (value : Json) : Prop :=
  r.object = some value ∨ r.oldObject = some value

/-- What a request carries along can be written: its user, and its objects unless one is null. -/
structure Writable (raw : Json → Prop) (r : AdmissionRequest) : Prop where
  user : Kubernetes.userInfo.Has raw (.record r.userInfo)
  objects : ∀ value, r.Carries value → raw value ∧ value ≠ .null

theorem Writable.imp {r : AdmissionRequest} {other : Json → Prop} (h : r.Writable raw)
    (known : ∀ value, r.Carries value → raw value → other value) : r.Writable other :=
  ⟨Shape.has_of_typed _ rfl h.user, fun value carried =>
    ⟨known value carried (h.objects value carried).1, (h.objects value carried).2⟩⟩

theorem exists_get?_of_carries {data : Fields} {value : Json} (h : (ofFields data).Carries value) :
    ∃ name, (name = "object" ∨ name = "oldObject") ∧ Keyed.get? name data = some (.json value) := by
  rcases h with found | found
  · exact ⟨"object", .inl rfl, Fields.json?_eq_some_iff.mp found⟩
  · exact ⟨"oldObject", .inr rfl, Fields.json?_eq_some_iff.mp found⟩

theorem writable_of_has {datum : Datum} (h : shape.Has raw datum) :
    (ofDatum datum).Writable raw := by
  cases h with
  | @record _ _ _ data has =>
      refine ⟨?_, fun value carried => ?_⟩
      · have user := has.get? (by decide)
          (show ("userInfo", .filled, Kubernetes.userInfo) ∈ _ by simp)
        simp only [ofDatum, ofFields, Fields.record?, Fields.part?]
        generalize Keyed.get? "userInfo" data = found at user
        cases user with
        | filled hasUser =>
            cases hasUser with
            | record fields => exact .record fields
      · obtain ⟨name, known, given⟩ := exists_get?_of_carries carried
        have field : HasField raw .optional .any (Keyed.get? name data) := by
          rcases known with rfl | rfl
          · exact has.get? (by decide) (show ("object", .optional, .any) ∈ _ by simp)
          · exact has.get? (by decide) (show ("oldObject", .optional, .any) ∈ _ by simp)
        rw [given] at field
        cases field with
        | optional hasValue notNull =>
            cases hasValue with
            | any known => exact ⟨known, fun null => notNull (congrArg Datum.json null)⟩

theorem depth_of_read {node : Json.Node} {depth : Nat} (within : node.Within depth) {datum : Datum}
    (h : shape.read node = .ok datum) {value : Json} (carried : (ofDatum datum).Carries value) :
    value.depth ≤ depth - 1 := by
  obtain ⟨data, rfl, parts⟩ := Shape.parts_of_read (by decide) (by decide) h
  obtain ⟨name, known, given⟩ := exists_get?_of_carries carried
  obtain ⟨part, hp, read⟩ : ∃ part ∈ node.parts, readAny part = .ok (.json value) := by
    rcases known with rfl | rfl
    · exact parts ("object", .optional, .any) (by simp) (by simp) _ given
    · exact parts ("oldObject", .optional, .any) (by simp) (by simp) _ given
  rw [readAny] at read
  split at read <;> cases read
  next read => exact (within.part hp).depth_toJson read

end AdmissionRequest

namespace AdmissionReview

/-- How deep the objects of a review may be: the review and the request are around them. -/
def objectDepth : Nat := Json.Document.maxDepth - 1 - 1

theorem request_ofDatum {data inner : Fields}
    (h : Keyed.get? "request" data = some (.record inner)) :
    (ofDatum (.record data)).request = AdmissionRequest.ofDatum (.record inner) := by
  simp [ofDatum, ofFields, Fields.record?, h, AdmissionRequest.ofDatum]

theorem exists_request_of_ofBytes {bytes : Bytes} {review : AdmissionReview}
    (h : ofBytes bytes = .ok review) :
    ∃ (node : Json.Node) (datum : Datum), node.Within (Json.Document.maxDepth - 1) ∧
      AdmissionRequest.shape.read node = .ok datum ∧
      review.request = AdmissionRequest.ofDatum datum := by
  obtain ⟨datum, document, rfl⟩ := map_eq_ok_iff.mp h
  obtain ⟨_, read, settled⟩ := bind_eq_ok_iff.mp document
  split at settled <;> cases settled
  obtain ⟨data, rfl, parts⟩ := Shape.parts_of_read (by decide) (by decide) read
  have gives := shape.has_read (fun _ _ => Json.Node.ordered_toJson _) (by decide) (by decide)
  cases gives _ _ read with
  | record has =>
      obtain ⟨request, given, hasRequest⟩ :=
        has.required (by decide) (show ("request", _, AdmissionRequest.shape) ∈ _ by simp)
      obtain ⟨part, hp, readRequest⟩ :=
        parts ("request", .required, AdmissionRequest.shape) (by simp) (by simp) _ given
      refine ⟨part, request, (Json.Document.within_root bytes).part hp, readRequest, ?_⟩
      cases hasRequest with
      | record => exact request_ofDatum given

theorem writable_of_ofBytes {bytes : Bytes} {review : AdmissionReview}
    (h : ofBytes bytes = .ok review) :
    review.request.Writable fun value => value.Ordered ∧ value.depth ≤ objectDepth := by
  obtain ⟨node, datum, within, read, same⟩ := exists_request_of_ofBytes h
  have gives := AdmissionRequest.shape.has_read (fun _ _ => Json.Node.ordered_toJson _) (by decide)
    (by decide)
  rw [same]
  refine (AdmissionRequest.writable_of_has (gives _ _ read)).imp fun value carried ordered => ?_
  exact ⟨ordered, AdmissionRequest.depth_of_read within read carried⟩

theorem ordered_of_ofBytes {bytes : Bytes} {review : AdmissionReview}
    (h : ofBytes bytes = .ok review) {object : Json} (carried : review.request.Carries object) :
    object.Ordered :=
  ((writable_of_ofBytes h).objects object carried).1.1

end AdmissionReview

end PodWebhook
