import PodWebhook.Http.Router
import PodWebhook.Proofs.Admission.Answers

/-!
What is answered to an HTTP request. Reviews are answered where they are posted, with status 200
whatever the body is, as long as it is not too large. No other request comes near the gateway: every
answer of the gateway is reported, and for such a request nothing is.
-/

namespace PodWebhook

namespace Gateway

theorem events_reject_ne_nil (error : GatewayError) : (reject error).events ≠ [] :=
  List.cons_ne_nil _ _

theorem events_answer_ne_nil (handler : Handler) (request : AdmissionRequest) :
    (answer handler request).events ≠ [] := by
  simp [answer_eq, encode_eq, Logged.within]

theorem events_serve_ne_nil (handler : Handler) (body : Bytes) :
    (serve handler body).events ≠ [] := by
  rw [serve_eq]
  split
  · exact events_answer_ne_nil handler _
  · exact events_reject_ne_nil _

theorem exists_response_serve (handler : Handler) (body : Bytes) :
    ∃ response, (serve handler body).value = (AdmissionAnswer.ofResponse response).toText := by
  rw [serve_eq]
  split
  · exact ⟨_, value_answer handler _⟩
  · exact ⟨_, value_reject _⟩

end Gateway

namespace Http

/-- A review is posted here, whatever its query. -/
def Request.PostsReview (request : Request) : Prop :=
  request.method = "POST" ∧ request.target.path = "/pod-mutating"

structure Response.Carries (response : Response) (admission : AdmissionResponse) : Prop where
  status : response.status = 200
  contentType : ∀ value, ("content-type", value) ∈ response.headers ↔ value = "application/json"
  body : AdmissionAnswer.ofBytes (Bytes.utf8 response.body) =
    .ok ⟨some "AdmissionReview", some "admission.k8s.io/v1", admission⟩

theorem Response.carries_ofJsonText (admission : AdmissionResponse) :
    (ofJsonText (AdmissionAnswer.ofResponse admission).toText).Carries admission where
  status := rfl
  contentType value := by simp [ofJsonText, lengthHeader]
  body := AdmissionAnswer.ofBytes_toText _

theorem statusCode_of_checkContentType {headers : Headers} {error : GatewayError}
    (h : checkContentType headers = .error error) : error.statusCode = 400 := by
  rw [checkContentType] at h
  split at h <;> cases h
  rfl

section

variable (host : String) (handler : Handler) {request : Request}

theorem respond_of_postsReview (h : request.PostsReview) :
    respond host handler request = mutate host handler request := by
  have route : Route.ofPath? request.target.path = some .mutating := by
    rw [h.2]
    rfl
  have allowed : request.method ∈ Route.mutating.allows := by
    rw [h.1]
    exact List.mem_cons_self
  simp only [respond, route, if_pos allowed]

theorem mutate_of_accepted (fits : request.body.length ≤ maxBody)
    (accepted : checkContentType request.headers = .ok ()) :
    (mutate host handler request).value =
      .ofJsonText (Gateway.serve handler request.body).value := by
  simp only [mutate_eq, if_neg (Nat.not_lt.mpr fits), accepted]
  rfl

theorem mutate_of_refused (fits : request.body.length ≤ maxBody) {error : GatewayError}
    (refused : checkContentType request.headers = .error error) :
    (mutate host handler request).value = .ofJsonText (Gateway.reject error).value := by
  simp only [mutate_eq, if_neg (Nat.not_lt.mpr fits), refused]
  rfl

theorem mutate_of_large (large : maxBody < request.body.length) :
    mutate host handler request = ⟨.ofText 413 tooLargeText, [tooLarge]⟩ := by
  rw [mutate, if_pos large]

end

/-- Every other request has a short answer of its own, with which no handler has to do. -/
theorem respond_elsewhere {request : Request} (h : ¬ request.PostsReview) :
    ∃ response, (response.body = "" ∨ response.body = "ok") ∧
      ∀ host handler, respond host handler request = Logged.quiet response := by
  unfold respond
  cases found : Route.ofPath? request.target.path with
  | none => exact ⟨.notFound request.target, .inl rfl, fun _ _ => rfl⟩
  | some route =>
      by_cases allowed : request.method ∈ route.allows
      · simp only [if_pos allowed]
        cases route with
        | mutating =>
            -- no other path leads here, and no other method is let in
            have path : request.target.path = mutatingPath := by
              by_contra other
              rw [Route.ofPath?, if_neg other] at found
              split at found <;> cases found
            exact absurd ⟨List.mem_singleton.mp allowed, path⟩ h
        | probe =>
            by_cases head : request.method = "HEAD"
            · exact ⟨(Response.ofText 200 "ok").headOnly, .inl rfl, fun _ _ => by rw [if_pos head]⟩
            · exact ⟨.ofText 200 "ok", .inr rfl, fun _ _ => by rw [if_neg head]⟩
      · exact ⟨.methodNotAllowed route, .inl rfl, fun _ _ => if_neg allowed⟩

theorem not_answer_of_short {body : String} (h : body = "" ∨ body = "ok")
    (answer : AdmissionAnswer) : AdmissionAnswer.ofBytes (Bytes.utf8 body) ≠ .ok answer := by
  rcases h with rfl | rfl
  · exact fun read => nomatch read
  · exact fun read => nomatch read

/-- A review that is posted is answered with a review, by the gateway if it comes as JSON and with a
rejection otherwise, unless it is too large. No other request is answered with a review, and none
comes to the gateway: no handler has a part in the answer, and nothing is reported, whereas the
gateway reports whatever it does. -/
theorem respond_admission (host : String) (handler : Handler) (request : Request) :
    ((request.PostsReview ∧ request.body.length ≤ 2097152 ∧
        ∃ admission, (respond host handler request).value.Carries admission ∧
          (checkContentType request.headers = .ok () →
            (respond host handler request).value.body =
              (Gateway.serve handler request.body).value) ∧
          ∀ error, checkContentType request.headers = .error error →
            (respond host handler request).value.body = (Gateway.reject error).value ∧
              admission = ⟨"", false, none, none, some ⟨some error.message, some 400⟩⟩) ∨
      (request.PostsReview ∧ 2097152 < request.body.length ∧
        (respond host handler request).value.status = 413) ∨
      (¬ request.PostsReview ∧ (respond host handler request).events = [] ∧
        (∀ other, respond host other request = respond host handler request) ∧
        ∀ answer, AdmissionAnswer.ofBytes
          (Bytes.utf8 (respond host handler request).value.body) ≠ .ok answer)) ∧
    (∀ body, (Gateway.serve handler body).events ≠ []) ∧
    ∀ error, (Gateway.reject error).events ≠ [] := by
  refine ⟨?_, Gateway.events_serve_ne_nil handler, Gateway.events_reject_ne_nil⟩
  by_cases posts : request.PostsReview
  · rw [respond_of_postsReview host handler posts]
    by_cases fits : request.body.length ≤ maxBody
    · refine .inl ⟨posts, fits, ?_⟩
      cases checked : checkContentType request.headers with
      | ok accepted =>
          obtain ⟨admission, written⟩ := Gateway.exists_response_serve handler request.body
          rw [mutate_of_accepted host handler fits checked, written]
          exact ⟨admission, Response.carries_ofJsonText admission, fun _ => rfl,
            fun error refused => nomatch refused⟩
      | error error =>
          have rejection : Gateway.rejection error =
              ⟨"", false, none, none, some ⟨some error.message, some 400⟩⟩ := by
            rw [Gateway.rejection, statusCode_of_checkContentType checked]
            rfl
          rw [mutate_of_refused host handler fits checked]
          refine ⟨_, Response.carries_ofJsonText (Gateway.rejection error),
            fun accepted => (nomatch accepted), ?_⟩
          rintro _ ⟨⟩
          exact ⟨rfl, rejection⟩
    · have large := Nat.lt_of_not_le fits
      refine .inr (.inl ⟨posts, large, ?_⟩)
      rw [mutate_of_large host handler large]
      rfl
  · obtain ⟨response, short, same⟩ := respond_elsewhere posts
    refine .inr (.inr ⟨posts, ?_, fun other => ?_, ?_⟩)
    · rw [same]
      rfl
    · rw [same, same]
    · rw [same]
      exact not_answer_of_short short

end Http

end PodWebhook
