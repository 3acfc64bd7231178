import PodWebhook.Admission.Gateway
import PodWebhook.Proofs.Admission.Verdict
import PodWebhook.Proofs.Schema.Writing

/-!
Answers on the wire. An answer is read from its text as it was before it was written, whatever its
strings hold and whatever is missing in it (`AdmissionAnswer.ofBytes_toText`). So whoever asked gets
what the handler said, with the uid that stands in the text of the review.
-/

namespace PodWebhook

open Schema

variable {raw : Json → Prop}

namespace AdmissionStatus

theorem has_toDatum (s : AdmissionStatus) : shape.Has raw s.toDatum :=
  .record (.cons (.ofOption s.message .text (by simp))
    (.last (.ofOption s.code
      (fun n => .int (by simp [IntegerKind.holds, n.toNat_lt])) (by simp))))

theorem ofFields_toDatum (s : AdmissionStatus) {fields : Fields} (h : s.toDatum = .record fields) :
    ofFields fields = s := by
  obtain ⟨message, code⟩ := s
  obtain rfl := Datum.record.inj h
  cases message <;> cases code <;>
    simp [ofFields, Fields.maybe, Fields.text?, Fields.int?, Keyed.get?]

end AdmissionStatus

namespace AdmissionResponse

theorem has_toDatum (r : AdmissionResponse) : shape.Has raw r.toDatum := by
  simp only [toDatum, List.append_assoc, List.cons_append, List.nil_append]
  exact .record (.present (.required (.text r.uid)) (.present (.required (.bool r.allowed))
    (.cons (.ofOption r.patchType (fun _ => .variant (by simp)) (by simp))
      (.cons (.ofOption r.patch .text (by simp))
        (.last (.ofOption r.status AdmissionStatus.has_toDatum
          (by simp [AdmissionStatus.toDatum])))))))

theorem ofFields_toDatum (r : AdmissionResponse) {fields : Fields}
    (h : r.toDatum = .record fields) : ofFields fields = r := by
  obtain ⟨uid, allowed, patchType, patch, status⟩ := r
  obtain rfl := Datum.record.inj h
  have same : ∀ s : AdmissionStatus, ∃ inner, s.toDatum = .record inner ∧
      AdmissionStatus.ofFields inner = s :=
    fun s => ⟨_, rfl, s.ofFields_toDatum rfl⟩
  cases patchType <;> cases patch <;> cases status with
  | none => rfl
  | some s =>
      obtain ⟨inner, written, read⟩ := same s
      simp [ofFields, Fields.maybe, Fields.text, Fields.text?, Fields.bool?, Fields.record?,
        Keyed.get?, written, read]

end AdmissionResponse

namespace AdmissionAnswer

theorem has_toDatum (a : AdmissionAnswer) : shape.Has raw a.toDatum := by
  simp only [toDatum, List.append_assoc]
  exact .record (.cons (.ofOption a.kind .text (by simp))
    (.cons (.ofOption a.apiVersion .text (by simp))
      (.present (.required a.response.has_toDatum) .nil)))

theorem ofDatum_toDatum (a : AdmissionAnswer) : ofDatum a.toDatum = a := by
  obtain ⟨kind, apiVersion, response⟩ := a
  obtain ⟨inner, written, read⟩ : ∃ inner, response.toDatum = .record inner ∧
      AdmissionResponse.ofFields inner = response :=
    ⟨_, rfl, response.ofFields_toDatum rfl⟩
  cases kind <;> cases apiVersion <;>
    simp [ofDatum, toDatum, ofFields, Fields.maybe, Fields.text?, Fields.record?, Keyed.get?,
      written, read]

theorem ofBytes_toText (a : AdmissionAnswer) : ofBytes (Bytes.utf8 a.toText) = .ok a := by
  have read : shape.readDocument (Json.Document.ofBytes (Bytes.utf8 a.toText)) = .ok a.toDatum :=
    @Shape.readDocument_compact (fun _ => False) 0 (fun _ h => h.elim) (fun _ h => h.elim) _
      (by decide) (by decide) _ a.has_toDatum
  rw [ofBytes, read]
  exact congrArg Except.ok a.ofDatum_toDatum

end AdmissionAnswer

namespace AdmissionReview

theorem ofBytes_spelled {value : Json} {body : Bytes} (h : Json.DocumentSpelled value body)
    (deep : value.depth ≤ Json.Document.maxDepth) {review : AdmissionReview} :
    ofBytes body = .ok review ↔
      ∃ datum, shape.readJson value = .ok datum ∧ ofDatum datum = review := by
  have same := shape.readDocument_spelled (by decide) h deep
  have sound : ∀ datum, shape.readDocument (Json.Document.ofBytes body) = .ok datum ↔
      shape.readJson value = .ok datum := fun datum => by
    rw [← toOption_eq_some_iff, same, toOption_eq_some_iff]
  rw [ofBytes, map_eq_ok_iff]
  exact exists_congr fun datum => and_congr_left fun _ => sound datum

theorem ofBytes_compact {value : Json} {datum : Datum} (integral : value.Integral)
    (deep : value.depth ≤ Json.Document.maxDepth) (read : shape.readJson value = .ok datum) :
    ofBytes (Bytes.utf8 value.compact) = .ok (ofDatum datum) :=
  (ofBytes_spelled (Json.documentSpelled_compact integral) deep).mpr ⟨datum, read, rfl⟩

def uidIn? (value : Json) : Option Json :=
  (part? "request" 2 value).bind (part? "uid" 0)

theorem uidIn?_of_readJson {value : Json} {datum : Datum} (h : shape.readJson value = .ok datum) :
    uidIn? value = some (.text (ofDatum datum).request.uid) := by
  have distinct : shape.distinct = true := by decide
  have distinctRequest : AdmissionRequest.shape.distinct = true := by decide
  obtain ⟨data, rfl, _⟩ := Shape.sources_of_read distinct (Shape.readJson_eq_ok_iff.mp h)
  obtain ⟨request, datum, standsAt, read, given⟩ :=
    Shape.part_of_readJson distinct h 2 "request" rfl
  obtain ⟨inner, rfl, _⟩ := Shape.sources_of_read distinctRequest (Shape.readJson_eq_ok_iff.mp read)
  obtain ⟨uid, datum, uidAt, readUid, givenUid⟩ :=
    Shape.part_of_readJson distinctRequest read 0 "uid" rfl
  obtain ⟨s, rfl, rfl⟩ := Shape.readJson_text readUid
  rw [uidIn?, standsAt, Option.bind_some, uidAt]
  simp [ofDatum, ofFields, AdmissionRequest.ofFields, Fields.record?, Fields.text, Fields.text?,
    given, givenUid]

end AdmissionReview

namespace Gateway

theorem value_serve {body : Bytes} {review : AdmissionReview}
    (h : AdmissionReview.ofBytes body = .ok review) (handler : Handler) :
    (serve handler body).value =
      (AdmissionAnswer.ofResponse (handler review.request).value).toText := by
  simp only [serve_eq, h, value_answer]

/-- Whatever a handler says arrives, part by part. The image policy repeats the uid of the request,
which is the text in the review. -/
theorem answer_arrives {body : Bytes} {review : AdmissionReview}
    (h : AdmissionReview.ofBytes body = .ok review) :
    (∀ handler : Handler, AdmissionAnswer.ofBytes (Bytes.utf8 (serve handler body).value) =
      .ok ⟨some "AdmissionReview", some "admission.k8s.io/v1", (handler review.request).value⟩) ∧
    (∀ policy : ImagePolicy, ∃ answer,
      AdmissionAnswer.ofBytes (Bytes.utf8 (serve policy.handle body).value) = .ok answer ∧
        answer.response.uid = review.request.uid) ∧
    ∀ value, Json.DocumentSpelled value body → value.depth ≤ Json.Document.maxDepth →
      AdmissionReview.uidIn? value = some (.text review.request.uid) := by
  have arrives : ∀ handler : Handler,
      AdmissionAnswer.ofBytes (Bytes.utf8 (serve handler body).value) =
        .ok ⟨some "AdmissionReview", some "admission.k8s.io/v1",
          (handler review.request).value⟩ := by
    intro handler
    rw [value_serve h]
    exact AdmissionAnswer.ofBytes_toText _
  refine ⟨arrives, fun policy => ⟨_, arrives policy.handle, policy.uid_handle _⟩, ?_⟩
  intro value spelled deep
  obtain ⟨datum, read, rfl⟩ := (AdmissionReview.ofBytes_spelled spelled deep).mp h
  exact AdmissionReview.uidIn?_of_readJson read

theorem answer_arrives_odd_uid :
    let uid := "\"\\\n\u0001\u007f😀"
    let review : Json := .object [("request", .object
      [("kind", .array [.text "", .text "v1", .text "Pod"]), ("operation", .text "CREATE"),
        ("resource", .array [.text "", .text "v1", .text "pods"]), ("uid", .text uid)])]
    let response : AdmissionResponse := ⟨uid, true, none, some "😀", some ⟨none, none⟩⟩
    AdmissionAnswer.ofBytes
        (Bytes.utf8 (serve (fun _ => ⟨response, []⟩) (Bytes.utf8 review.compact)).value) =
      .ok ⟨some "AdmissionReview", some "admission.k8s.io/v1", response⟩ ∧
    ∃ answer, AdmissionAnswer.ofBytes (Bytes.utf8
        (serve ImagePolicy.standard.handle (Bytes.utf8 review.compact)).value) = .ok answer ∧
      answer.response.uid = uid := by
  intro uid review response
  have integral : review.Integral := by
    simp [review, Json.Integral, Json.IntegralMembers, Json.IntegralItems]
  obtain ⟨datum, read⟩ : ∃ datum, AdmissionReview.shape.readJson review = .ok datum := ⟨_, rfl⟩
  have decodes := AdmissionReview.ofBytes_compact integral (by decide) read
  obtain ⟨arrives, repeated, stands⟩ := answer_arrives decodes
  obtain ⟨answer, parsed, same⟩ := repeated .standard
  have there : some (Json.text uid) = some (.text (AdmissionReview.ofDatum datum).request.uid) :=
    stands review (Json.documentSpelled_compact integral) (by decide)
  refine ⟨arrives fun _ => ⟨response, []⟩, answer, parsed, ?_⟩
  rw [same]
  exact (Json.text.inj (Option.some.inj there)).symm

end Gateway

end PodWebhook
