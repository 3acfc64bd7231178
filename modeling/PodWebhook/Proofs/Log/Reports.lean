import PodWebhook.Log.Record
import PodWebhook.Proofs.Admission.Agreement
import PodWebhook.Proofs.Http.Routing

/-!
What is reported about reviews, beside what is answered to them. Each review that is posted leaves
one record of its verdict, which says what the answer says; and for each operation of the patch
there is a record of the image that it replaces. Requests that are answered one after the other
leave their records one after the other.
-/

namespace PodWebhook

open Schema

namespace Log

def comesFrom (part : String) (event : Event) : Bool :=
  part.toList.isPrefixOf event.target.toList

def isOwn (event : Event) : Bool :=
  comesFrom "pod_mutator" event || comesFrom "mutating_webhook_server" event

def records (limit : Option Level) (events : List Event) : List Event :=
  events.filter fun e => wanted limit e.level && isOwn e

def replacements (events : List Event) : List Event :=
  (records (some .debug) events).filter fun e => e.message == "replacing container image"

theorem records_append (limit : Option Level) (events others : List Event) :
    records limit (events ++ others) = records limit events ++ records limit others := by
  rw [records, List.filter_append]
  rfl

theorem replacements_append (events others : List Event) :
    replacements (events ++ others) = replacements events ++ replacements others := by
  rw [replacements, records_append, List.filter_append]
  rfl

theorem records_within (limit : Option Level) (facts : NamedFields) (events : List Event) :
    records limit (events.map (Event.within facts)) =
      (records limit events).map (Event.within facts) := by
  rw [records, List.filter_map]
  rfl

theorem replacements_within (facts : NamedFields) (events : List Event) :
    replacements (events.map (Event.within facts)) =
      (replacements events).map (Event.within facts) := by
  rw [replacements, records_within, List.filter_map]
  rfl

end Log

namespace Http

def answerNext (host : String) (handler : Handler) (done : Logged (List Response))
    (request : Request) : Logged (List Response) :=
  let next := respond host handler request
  ⟨done.value ++ [next.value], done.events ++ next.events⟩

def respondAll (host : String) (handler : Handler) (requests : List Request) :
    Logged (List Response) :=
  requests.foldl (answerNext host handler) (Logged.quiet [])

theorem events_foldl_answerNext (host : String) (handler : Handler) (requests : List Request)
    (done : Logged (List Response)) :
    (requests.foldl (answerNext host handler) done).events =
      done.events ++ requests.flatMap fun request => (respond host handler request).events := by
  induction requests generalizing done with
  | nil => simp
  | cons request requests ih =>
      rw [List.foldl_cons, ih, answerNext, List.flatMap_cons, List.append_assoc]

theorem events_respondAll (host : String) (handler : Handler) (requests : List Request) :
    (respondAll host handler requests).events =
      requests.flatMap fun request => (respond host handler request).events :=
  events_foldl_answerNext host handler requests (Logged.quiet [])

def Request.posting (review : Json) : Request where
  method := "POST"
  target := ⟨"/pod-mutating", none⟩
  headers := [("content-type", Bytes.utf8 "application/json")]
  body := Bytes.utf8 review.compact

theorem accepts_posting (review : Json) :
    checkContentType (Request.posting review).headers = .ok () := by
  change checkContentType [("content-type", Bytes.utf8 "application/json")] = .ok ()
  decide +kernel

def Request.review? (request : Request) : Option AdmissionReview :=
  (checkContentType request.headers).toOption.bind fun _ =>
    (AdmissionReview.ofBytes request.body).toOption

theorem Request.review?_eq_some {request : Request} {review : AdmissionReview} :
    request.review? = some review ↔
      checkContentType request.headers = .ok () ∧
        AdmissionReview.ofBytes request.body = .ok review := by
  cases checked : checkContentType request.headers with
  | ok accepted => simp [review?, checked, Except.toOption, ← toOption_eq_some_iff]
  | error refused => simp [review?, checked, Except.toOption]

theorem review?_posting {review : Json} (integral : review.Integral)
    (shallow : review.depth ≤ Json.Document.maxDepth) {datum : Datum}
    (read : AdmissionReview.shape.readJson review = .ok datum) :
    (Request.posting review).review? = some (.ofDatum datum) :=
  Request.review?_eq_some.mpr
    ⟨accepts_posting review, AdmissionReview.ofBytes_compact integral shallow read⟩

inductive Request.FailsAs (request : Request) : GatewayError → Prop where
  | refused {error : GatewayError} (h : checkContentType request.headers = .error error) :
      FailsAs request error
  | unread {mismatch : Schema.Mismatch}
      (h : AdmissionReview.ofBytes request.body = .error mismatch) :
      FailsAs request (.transport (mismatch.describeIn request.body))

section

variable (host : String) (handler : Handler) {request : Request} (posts : request.PostsReview)
  (fits : request.body.length ≤ maxBody)

include posts fits

theorem respond_of_review {review : AdmissionReview} (h : request.review? = some review) :
    respond host handler request = Logged.within (hostFact host)
      ⟨.ofJsonText (Gateway.answer handler review.request).value,
        (Gateway.answer handler review.request).events⟩ := by
  obtain ⟨accepted, read⟩ := Request.review?_eq_some.mp h
  rw [respond_of_postsReview host handler posts]
  simp only [mutate_eq, if_neg (Nat.not_lt.mpr fits), accepted, Gateway.serve_eq, read]
  rfl

theorem respond_of_no_review (h : request.review? = none) :
    ∃ error, request.FailsAs error ∧ ∀ handler, respond host handler request =
      Logged.within (hostFact host)
        ⟨.ofJsonText (Gateway.reject error).value, (Gateway.reject error).events⟩ := by
  cases checked : checkContentType request.headers with
  | ok accepted =>
      cases read : AdmissionReview.ofBytes request.body with
      | ok review => exact nomatch h.symm.trans (Request.review?_eq_some.mpr ⟨checked, read⟩)
      | error mismatch =>
          refine ⟨_, .unread read, fun handler => ?_⟩
          rw [respond_of_postsReview host handler posts]
          simp only [mutate_eq, if_neg (Nat.not_lt.mpr fits), checked, Gateway.serve_eq, read]
          rfl
  | error error =>
      refine ⟨error, .refused checked, fun handler => ?_⟩
      rw [respond_of_postsReview host handler posts]
      simp only [mutate_eq, if_neg (Nat.not_lt.mpr fits), checked]
      rfl

end

end Http

namespace Log

/-- A record tells what an operation does: in which container an image is replaced, and by which
one. -/
inductive Tells (containers : List Container) : Json.Operation → Event → Prop where
  | replaced {index : Nat} {c : Container} {old new : String} {event : Event}
      (found : containers[index]? = some c) (image : c.image = some old)
      (fields : event.fields =
        [("container", .text c.name), ("from", .text old), ("to", .text new)]) :
      Tells containers (.replace (Pod.imagePath index) (.text new)) event
  | added {index : Nat} {c : Container} {new : String} {event : Event}
      (found : containers[index]? = some c) (image : c.image = none)
      (fields : event.fields =
        [("container", .text c.name), ("from", .text ""), ("to", .text new)]) :
      Tells containers (.add (Pod.imagePath index) (.text new)) event

theorem Tells.within {containers : List Container} {op : Json.Operation} {event : Event}
    (h : Tells containers op event) (facts : NamedFields) :
    Tells containers op (event.within facts) := by
  cases h with
  | replaced found image fields => exact .replaced found image fields
  | added found image fields => exact .added found image fields

end Log

namespace ImagePolicy

theorem tells_replacement (policy : ImagePolicy) {containers : List Container} {index : Nat}
    {c : Container} (found : containers[index]? = some c) :
    Log.Tells containers (policy.imageOperation (Pod.imagePath index) c)
      (policy.replacement c) := by
  rw [imageOperation]
  split
  · next old image => exact .replaced found image (by rw [replacement, image]; rfl)
  · next none => exact .added found none (by rw [replacement, none]; rfl)

theorem tells_operations (policy : ImagePolicy) (done containers : List Container) :
    List.Forall₂ (Log.Tells (done ++ containers)) (policy.operations done.length containers)
      ((containers.filter policy.changes).map policy.replacement) := by
  induction containers generalizing done with
  | nil => exact .nil
  | cons c containers ih =>
      have rest := ih (done ++ [c])
      rw [List.length_append, List.append_assoc] at rest
      have found : (done ++ c :: containers)[done.length]? = some c := by simp
      rw [operations_cons]
      by_cases changed : policy.changes c = true
      · rw [if_pos changed, List.filter_cons_of_pos changed]
        exact .cons (policy.tells_replacement found) rest
      · rw [if_neg changed, List.filter_cons_of_neg changed]
        exact rest

theorem changed_eq (policy : ImagePolicy) (pod : Pod) :
    policy.changed pod =
      if policy.selects pod then pod.containers.filter policy.changes else [] := by
  rw [changed, Pod.containers]
  cases pod.spec <;> rfl

theorem tells_changed (policy : ImagePolicy) {pod : Pod} (tidy : pod.Tidy) :
    List.Forall₂ (Log.Tells pod.containers)
      (Json.diff pod.toJson (policy.apply pod).toJson)
      ((policy.changed pod).map policy.replacement) := by
  rw [policy.diff_apply tidy, changed_eq]
  split
  · exact policy.tells_operations [] pod.containers
  · exact .nil

theorem events_handle_of_asksFor (policy : ImagePolicy) {request : AdmissionRequest} {pod : Pod}
    (h : request.AsksFor pod) : (policy.handle request).events =
      (policy.changed pod).map policy.replacement ++
        [allowedEvent (policy.handle request).value] := by
  obtain ⟨object, carries, read⟩ := h.reads
  have agrees := GroupVersionKind.agrees_iff.mpr h.kind
  simp only [handle, patchFor, agrees, if_true, podOf, carries, read, patchOf_eq, Except.bind,
    AdmissionResponse.attach_eq, run]

theorem events_handle_of_refused (policy : ImagePolicy) {request : AdmissionRequest}
    {error : MutationError} (h : request.Refused error) :
    (policy.handle request).events = [rejectedEvent request error] := by
  cases h with
  | kind other =>
      have differs : ¬ request.kind.agrees GroupVersionKind.pod = true :=
        mt GroupVersionKind.agrees_iff.mp other
      simp only [handle, patchFor, if_neg differs]
      rfl
  | missing pod none =>
      have agrees := GroupVersionKind.agrees_iff.mpr pod
      simp only [handle, patchFor, if_pos agrees, podOf, none]
      rfl
  | malformed pod carries unread =>
      have agrees := GroupVersionKind.agrees_iff.mpr pod
      simp only [handle, patchFor, if_pos agrees, podOf, carries, unread]
      rfl

end ImagePolicy

namespace Log

def reviewParts : List String :=
  ["pod_mutator::mutation", "pod_mutator::handler", "mutating_webhook_server::api::gateway"]

theorem isOwn_of_mem {event : Event} (h : event.target ∈ reviewParts) : isOwn event = true := by
  have all : ∀ target ∈ reviewParts, ("pod_mutator".toList.isPrefixOf target.toList ||
      "mutating_webhook_server".toList.isPrefixOf target.toList) = true := by decide
  exact all event.target h

theorem records_singleton (limit : Option Level) {event : Event}
    (h : event.target ∈ reviewParts) :
    records limit [event] = if wanted limit event.level then [event] else [] := by
  rw [records, List.filter_singleton, isOwn_of_mem h, Bool.and_true, Bool.cond_eq_ite]

theorem replacements_singleton {event : Event} (h : event.message ≠ "replacing container image") :
    replacements [event] = [] := by
  rw [replacements, records, List.filter_filter, List.filter_eq_nil_iff, List.forall_mem_singleton]
  simp [h]

theorem records_map (limit : Option Level) (policy : ImagePolicy) (containers : List Container) :
    records limit (containers.map policy.replacement) =
      if wanted limit .debug then containers.map policy.replacement else [] := by
  have own : ∀ event ∈ containers.map policy.replacement,
      (wanted limit event.level && isOwn event) = wanted limit .debug := by
    rw [List.forall_mem_map]
    intro c _
    rw [@isOwn_of_mem (policy.replacement c) (.head _), Bool.and_true]
    rfl
  rw [records, List.filter_congr own]
  split
  · next want => simp [want]
  · next unwanted => simp [unwanted]

theorem replacements_map (policy : ImagePolicy) (containers : List Container) :
    replacements (containers.map policy.replacement) = containers.map policy.replacement := by
  have message : ∀ event ∈ containers.map policy.replacement,
      (event.message == "replacing container image") = true := by
    rw [List.forall_mem_map]
    exact fun c _ => rfl
  rw [replacements, records_map]
  exact List.filter_eq_self.mpr message

/-- An event tells the verdict of a response: whether it is allowed, and why not or with which
result. -/
structure Verdict (response : AdmissionResponse) (event : Event) : Prop where
  warns : event.level = .warn ↔ response.allowed = false
  informs : event.level = .info ↔ response.allowed = true
  error : response.allowed = false → ∃ message code,
    response.status = some ⟨some message, code⟩ ∧
      Keyed.get? "error" event.fields = some (.plain message)
  mutated : response.allowed = true →
    Keyed.get? "mutated" event.fields = some (.flag response.patch.isSome)

theorem verdict_of_allowed {response : AdmissionResponse} {event : Event}
    (allowed : response.allowed = true) (level : event.level = .info)
    (mutated : Keyed.get? "mutated" event.fields = some (.flag response.patch.isSome)) :
    Verdict response event where
  warns := by simp [allowed, level]
  informs := by simp [allowed, level]
  error denied := nomatch allowed.symm.trans denied
  mutated _ := mutated

theorem verdict_of_denied {response : AdmissionResponse} {event : Event} {message : String}
    {code : Option UInt16} (denied : response.allowed = false) (level : event.level = .warn)
    (status : response.status = some ⟨some message, code⟩)
    (error : Keyed.get? "error" event.fields = some (.plain message)) :
    Verdict response event where
  warns := by simp [denied, level]
  informs := by simp [denied, level]
  error _ := ⟨message, code, status, error⟩
  mutated allowed := nomatch allowed.symm.trans denied

/-- What an answer to a posted review says and what is reported about it. -/
structure Agrees (request : Http.Request) (answered : Logged Http.Response)
    (admission : AdmissionResponse) (event : Event) : Prop where
  carries : answered.value.Carries admission
  /-- There is no other record of the level, and none of a more severe one. -/
  only : records (some .info) answered.events = [event]
  verdict : Verdict admission event
  handled : ∀ review, request.review? = some review →
    event.target = "pod_mutator::handler" ∧
      Keyed.get? "uid" event.fields = some (.text admission.uid)
  unhandled : request.review? = none →
    event.target = "mutating_webhook_server::api::gateway" ∧
      ∀ limit, ∀ other ∈ records limit answered.events, comesFrom "pod_mutator" other = false
  /-- The operations of the patch are told one by one, for the containers of the Pod. -/
  replaced : ∀ review pod, request.review? = some review → review.request.AsksFor pod →
    ∃ patch, admission.operations? = some patch ∧
      List.Forall₂ (Tells pod.containers) patch (replacements answered.events)
  unreplaced : (∀ review, request.review? = some review → ¬ review.request.Readable) →
    admission.operations? = some [] ∧ replacements answered.events = []

theorem records_answer (limit : Option Level) (handler : Handler) (request : AdmissionRequest) :
    records limit (Gateway.answer handler request).events =
      (records limit (handler request).events ++
        records limit (Gateway.encode (handler request).value).events).map
          (Event.within (Gateway.requestFacts request)) := by
  rw [Gateway.answer_eq, Logged.within, records_within, records_append]

theorem records_info_encode (response : AdmissionResponse) :
    records (some .info) (Gateway.encode response).events = [] :=
  records_singleton _ (.tail _ (.tail _ (.head _)))

theorem replacements_encode (response : AdmissionResponse) :
    replacements (Gateway.encode response).events = [] := by
  have other : "admission review processed" ≠ "replacing container image" := by decide
  exact replacements_singleton other

theorem records_reject (limit : Option Level) (error : GatewayError) :
    records limit (Gateway.reject error).events =
      records limit [Gateway.badRequest error] ++
        records limit (Gateway.encode (Gateway.rejection error)).events :=
  records_append limit [Gateway.badRequest error] _

theorem replacements_reject (error : GatewayError) :
    replacements (Gateway.reject error).events = [] := by
  have other : "bad AdmissionReview request" ≠ "replacing container image" := by decide
  have bad : replacements [Gateway.badRequest error] = [] := replacements_singleton other
  exact (replacements_append [Gateway.badRequest error] _).trans
    (congrArg₂ (· ++ ·) bad (replacements_encode _))

theorem replacements_answer (handler : Handler) (request : AdmissionRequest) :
    replacements (Gateway.answer handler request).events =
      (replacements (handler request).events).map
        (Event.within (Gateway.requestFacts request)) := by
  rw [Gateway.answer_eq, Logged.within, replacements_within, replacements_append,
    replacements_encode, List.append_nil]

theorem records_info_of_asksFor (policy : ImagePolicy) {request : AdmissionRequest} {pod : Pod}
    (h : request.AsksFor pod) : records (some .info) (policy.handle request).events =
      [ImagePolicy.allowedEvent (policy.handle request).value] := by
  rw [policy.events_handle_of_asksFor h, records_append, records_map]
  exact records_singleton _ (.tail _ (.head _))

theorem records_info_of_refused (policy : ImagePolicy) {request : AdmissionRequest}
    {error : MutationError} (h : request.Refused error) :
    records (some .info) (policy.handle request).events =
      [ImagePolicy.rejectedEvent request error] := by
  rw [policy.events_handle_of_refused h]
  exact records_singleton _ (.tail _ (.head _))

theorem replacements_of_asksFor (policy : ImagePolicy) {request : AdmissionRequest} {pod : Pod}
    (h : request.AsksFor pod) : replacements (policy.handle request).events =
      (policy.changed pod).map policy.replacement := by
  have other : "admission request allowed" ≠ "replacing container image" := by decide
  have last : replacements [ImagePolicy.allowedEvent (policy.handle request).value] = [] :=
    replacements_singleton other
  rw [policy.events_handle_of_asksFor h, replacements_append, replacements_map, last,
    List.append_nil]

theorem replacements_of_refused (policy : ImagePolicy) {request : AdmissionRequest}
    {error : MutationError} (h : request.Refused error) :
    replacements (policy.handle request).events = [] := by
  have other : "admission request rejected" ≠ "replacing container image" := by decide
  rw [policy.events_handle_of_refused h]
  exact replacements_singleton other

section

variable (host : String) (policy : ImagePolicy) {request : Http.Request}
  (posts : request.PostsReview) (fits : request.body.length ≤ Http.maxBody)

include posts fits

theorem agrees_of_review {review : AdmissionReview} (reads : request.review? = some review)
    {event : Event} (only : records (some .info) (policy.handle review.request).events = [event])
    (verdict : Verdict (policy.handle review.request).value event)
    (handled : event.target = "pod_mutator::handler" ∧
      Keyed.get? "uid" event.fields = some (.text (policy.handle review.request).value.uid))
    (replaced : ∀ pod, review.request.AsksFor pod →
      ∃ patch, (policy.handle review.request).value.operations? = some patch ∧
        List.Forall₂ (Tells pod.containers) patch
          (replacements (policy.handle review.request).events))
    (unreplaced : ¬ review.request.Readable →
      (policy.handle review.request).value.operations? = some [] ∧
        replacements (policy.handle review.request).events = []) :
    Agrees request (Http.respond host policy.handle request)
      (policy.handle review.request).value
      ((event.within (Gateway.requestFacts review.request)).within (Http.hostFact host)) := by
  rw [Http.respond_of_review host policy.handle posts fits reads]
  constructor
  case carries =>
    rw [Gateway.value_answer]
    exact Http.Response.carries_ofJsonText _
  case only =>
    rw [Logged.within, records_within, records_answer, only, records_info_encode]
    rfl
  case verdict => exact ⟨verdict.warns, verdict.informs, verdict.error, verdict.mutated⟩
  case handled => exact fun _ _ => handled
  case unhandled => exact fun none => absurd (reads.symm.trans none) (Option.some_ne_none _)
  case replaced =>
    intro other pod same asks
    obtain rfl := Option.some.inj (reads.symm.trans same)
    obtain ⟨patch, operations, tells⟩ := replaced pod asks
    refine ⟨patch, operations, ?_⟩
    rw [Logged.within, replacements_within, replacements_answer, List.map_map,
      List.forall₂_map_right_iff]
    exact tells.imp fun _ _ told => (told.within _).within _
  case unreplaced =>
    intro unreadable
    obtain ⟨operations, none⟩ := unreplaced (unreadable review reads)
    refine ⟨operations, ?_⟩
    rw [Logged.within, replacements_within, replacements_answer, none]
    rfl

theorem agrees_of_no_review (reads : request.review? = none) :
    ∃ admission verdict,
      Agrees request (Http.respond host policy.handle request) admission verdict := by
  obtain ⟨error, -, answered⟩ := Http.respond_of_no_review host posts fits reads
  refine ⟨Gateway.rejection error, (Gateway.badRequest error).within (Http.hostFact host), ?_⟩
  rw [answered]
  have own := @records_singleton (some .info) (Gateway.badRequest error)
    (.tail _ (.tail _ (.head _)))
  constructor
  case carries =>
    rw [Gateway.value_reject]
    exact Http.Response.carries_ofJsonText _
  case only =>
    rw [Logged.within, records_within, records_reject, own, records_info_encode]
    rfl
  case verdict => exact verdict_of_denied rfl rfl rfl rfl
  case handled => exact fun _ some => absurd (some.symm.trans reads) (Option.some_ne_none _)
  case unhandled =>
    have gateway : ∀ event ∈ (Gateway.reject error).events, event.target = Gateway.target := by
      simp [Gateway.reject_eq, Gateway.encode_eq, Gateway.badRequest, Gateway.processed]
    refine fun _ => ⟨rfl, fun limit other member => ?_⟩
    rw [Logged.within, records_within] at member
    obtain ⟨event, recorded, rfl⟩ := List.mem_map.mp member
    rw [comesFrom, Event.target_within, gateway event (List.mem_of_mem_filter recorded)]
    decide
  case replaced => exact fun _ _ some => absurd (some.symm.trans reads) (Option.some_ne_none _)
  case unreplaced =>
    refine fun _ => ⟨rfl, ?_⟩
    rw [Logged.within, replacements_within, replacements_reject]
    rfl

theorem agrees_of_asksFor {review : AdmissionReview} (reads : request.review? = some review)
    {pod : Pod} (asks : review.request.AsksFor pod) : ∃ event,
      Agrees request (Http.respond host policy.handle request)
        (policy.handle review.request).value event := by
  have allowed := (policy.allows_of_readable ⟨pod, asks⟩).allowed
  have only := records_info_of_asksFor policy asks
  refine ⟨_, agrees_of_review host policy posts fits reads only
    (verdict_of_allowed allowed rfl rfl) ⟨rfl, rfl⟩ ?replaced ?unreplaced⟩
  case replaced =>
    intro pod asks
    have tidy := AdmissionReview.tidy_of_asksFor (Http.Request.review?_eq_some.mp reads).2 asks
    refine ⟨Json.diff pod.toJson (policy.apply pod).toJson, ?_, ?_⟩
    · rw [policy.handle_of_asksFor asks]
      exact AdmissionResponse.operations?_withPatch _ (policy.portable_diff tidy)
    · rw [replacements_of_asksFor policy asks]
      exact policy.tells_changed tidy
  case unreplaced => exact fun unreadable => absurd ⟨pod, asks⟩ unreadable

theorem agrees_of_refused {review : AdmissionReview} (reads : request.review? = some review)
    {error : MutationError} (refused : review.request.Refused error) : ∃ event,
      Agrees request (Http.respond host policy.handle request)
        (policy.handle review.request).value event := by
  have denies := policy.denies_of_refused refused
  have only := records_info_of_refused policy refused
  refine ⟨_, agrees_of_review host policy posts fits reads only
    (verdict_of_denied denies.allowed rfl denies.status rfl)
    ⟨rfl, congrArg (fun uid => some (FieldValue.text uid)) denies.uid.symm⟩ ?replaced ?unreplaced⟩
  case replaced => exact fun pod asks => absurd ⟨pod, asks⟩ refused.not_readable
  case unreplaced =>
    refine fun _ => ⟨?_, replacements_of_refused policy refused⟩
    rw [AdmissionResponse.operations?, denies.patch]

theorem agrees_respond : ∃ admission event,
    Agrees request (Http.respond host policy.handle request) admission event := by
  cases reads : request.review? with
  | none => exact agrees_of_no_review host policy posts fits reads
  | some review =>
      rcases review.request.readable_or_refused with ⟨pod, asks⟩ | ⟨error, refused⟩
      · exact ⟨_, agrees_of_asksFor host policy posts fits reads asks⟩
      · exact ⟨_, agrees_of_refused host policy posts fits reads refused⟩

end

/-- Each review that is posted leaves one record at info or above: it comes from the handler if the
review is read and from the gateway otherwise, and it gives the verdict of the answer. Below that
there is one record for each operation of the patch, in its order. What a sequence of requests
leaves is what each of them leaves. -/
theorem records_respondAll (host : String) (policy : ImagePolicy) (requests : List Http.Request)
    (posts : ∀ request ∈ requests, request.PostsReview ∧ request.body.length ≤ 2097152) :
    (∀ limit, records limit (Http.respondAll host policy.handle requests).events =
      requests.flatMap fun request =>
        records limit (Http.respond host policy.handle request).events) ∧
    ∀ request ∈ requests, ∃ admission event,
      Agrees request (Http.respond host policy.handle request) admission event := by
  constructor
  · intro limit
    rw [Http.events_respondAll, records, List.filter_flatMap]
    rfl
  · intro request member
    obtain ⟨review, fits⟩ := posts request member
    exact agrees_respond host policy review fits

/-- Two containers of a Pod get an image, one of them in place of another; the same object is
refused as a Node. -/
theorem records_respondAll_pod_and_node :
    let policy : ImagePolicy := ⟨"app", "web", "main", "img:2"⟩
    let object : Json :=
      .object [("metadata", .object [("labels", .object [("app", .text "web")])]),
        ("spec", .object [("containers", .array [
          .object [("image", .text "img:1"), ("name", .text "main")],
          .object [("name", .text "side")], .object [("name", .text "main")]])])]
    let review (kind : String) : Json := .object [("request", .object
      [("kind", .array [.text "", .text "v1", .text kind]), ("object", object),
        ("operation", .text "CREATE"), ("resource", .array [.text "", .text "v1", .text "pods"]),
        ("uid", .text "u")])]
    let posted (kind : String) : Http.Request := .posting (review kind)
    let answered (kind : String) := Http.respond "host" policy.handle (posted kind)
    (∀ limit, records limit
        (Http.respondAll "host" policy.handle [posted "Pod", posted "Node"]).events =
      records limit (answered "Pod").events ++ records limit (answered "Node").events) ∧
    (∃ admission event patch containers, Agrees (posted "Pod") (answered "Pod") admission event ∧
      event.target = "pod_mutator::handler" ∧
      Keyed.get? "uid" event.fields = some (.text admission.uid) ∧
      admission.operations? = some patch ∧ patch.length = 2 ∧
      List.Forall₂ (Tells containers) patch (replacements (answered "Pod").events)) ∧
    ∃ admission event, Agrees (posted "Node") (answered "Node") admission event ∧
      event.target = "pod_mutator::handler" ∧ admission.operations? = some [] := by
  intro policy object review posted answered
  have posts (kind : String) : (posted kind).PostsReview := ⟨rfl, rfl⟩
  have fitsPod : (posted "Pod").body.length ≤ 2097152 := by decide +kernel
  have fitsNode : (posted "Node").body.length ≤ 2097152 := by decide +kernel
  obtain ⟨all, each⟩ := records_respondAll "host" policy [posted "Pod", posted "Node"]
    (List.forall_mem_cons.mpr ⟨⟨posts _, fitsPod⟩,
      List.forall_mem_singleton.mpr ⟨posts _, fitsNode⟩⟩)
  have ordered : object.Ordered := by decide +kernel
  have heard (kind : String) : ∃ found, (posted kind).review? = some found ∧
      found.request.kind = ⟨"", "v1", kind⟩ ∧ found.request.object = some object := by
    have integral : (review kind).Integral := by
      simp [review, object, Json.Integral, Json.IntegralMembers, Json.IntegralItems]
    have shallow : (review kind).depth ≤ Json.Document.maxDepth :=
      le_of_eq_of_le (show (review kind).depth = 6 from rfl) (by decide)
    exact ⟨_, Http.review?_posting integral shallow rfl, rfl,
      congrArg some (Json.sorted_of_ordered _ ordered)⟩
  obtain ⟨pod, read⟩ : ∃ pod, Pod.ofJson object = .ok pod := ⟨_, rfl⟩
  refine ⟨fun limit => by rw [all, List.flatMap_cons, List.flatMap_singleton], ?_, ?_⟩
  · obtain ⟨found, reads, kind, carries⟩ := heard "Pod"
    have asks : found.request.AsksFor pod := ⟨kind, object, carries, read⟩
    obtain ⟨admission, event, agrees⟩ := each (posted "Pod") (.head _)
    obtain ⟨patch, operations, tells⟩ := agrees.replaced found pod reads asks
    obtain ⟨target, uid⟩ := agrees.handled found reads
    have selected : policy.selects pod = true :=
      (ImagePolicy.selects_iff ordered read).mpr rfl
    have changed : (policy.changed pod).length = 2 := by
      rw [policy.changed_eq, if_pos selected]
      obtain rfl := Except.ok.inj read
      rfl
    have told : (replacements (answered "Pod").events).length = 2 := by
      simp only [answered]
      rw [Http.respond_of_review "host" policy.handle (posts "Pod") fitsPod reads, Logged.within,
        replacements_within, replacements_answer, replacements_of_asksFor policy asks]
      simpa only [List.length_map] using changed
    exact ⟨admission, event, patch, pod.containers, agrees, target, uid, operations,
      tells.length_eq.trans told, tells⟩
  · obtain ⟨found, reads, kind, -⟩ := heard "Node"
    obtain ⟨admission, event, agrees⟩ := each (posted "Node") (.tail _ (.head _))
    refine ⟨admission, event, agrees, (agrees.handled found reads).1, (agrees.unreplaced ?_).1⟩
    rintro other same ⟨pod, asks⟩
    obtain rfl := Option.some.inj (reads.symm.trans same)
    exact absurd (kind.symm.trans asks.kind) (by decide)

end Log

end PodWebhook
