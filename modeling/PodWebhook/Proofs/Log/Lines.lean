import PodWebhook.Log.Text
import PodWebhook.Proofs.Log.Entries
import PodWebhook.Proofs.Schema.Wording

/-!
Which records keep to one line. Every text of a request is quoted where it is recorded, but for the
kind of the object: it is written as it is when the request is rejected, twice in the same record.
So the log is one line for each event exactly if no kind that is asked about has a line break.
-/

namespace PodWebhook

open Schema Text

namespace Log

structure FieldFits (field : String × FieldValue) : Prop where
  name : OneLine field.1
  value : OneLine (valueText field.2)

structure Fits (event : Event) : Prop where
  message : OneLine event.message
  fields : ∀ field ∈ event.fields, FieldFits field

/-- What stands around an event in a line. -/
structure Framed (event : Event) : Prop where
  target : OneLine event.target
  context : ∀ fact ∈ event.context, FieldFits fact

theorem fits_within {facts : NamedFields} {event : Event} :
    Fits (event.within facts) ↔ Fits event :=
  ⟨fun h => ⟨h.message, h.fields⟩, fun h => ⟨h.message, h.fields⟩⟩

theorem Framed.within {facts : NamedFields} {event : Event} (h : Framed event)
    (known : ∀ fact ∈ facts, FieldFits fact) : Framed (event.within facts) :=
  ⟨h.target, List.forall_mem_append.mpr ⟨known, h.context⟩⟩

theorem oneLine_fieldText {field : String × FieldValue} :
    OneLine (fieldText field) ↔ FieldFits field := by
  rw [fieldText, oneLine_append, oneLine_append, and_iff_left (oneLine_literal rfl)]
  exact ⟨fun h => ⟨h.1, h.2⟩, fun h => ⟨h.name, h.value⟩⟩

theorem oneLine_recordText {event : Event} : OneLine (recordText event) ↔ Fits event := by
  have gap : OneLine " " := oneLine_literal rfl
  simp only [recordText, String.append_assoc, oneLine_foldl, oneLine_append, gap, true_and,
    oneLine_fieldText]
  exact ⟨fun h => ⟨h.1, h.2⟩, fun h => ⟨h.message, h.fields⟩⟩

theorem oneLine_paint {color : Bool} {mark : Mark} {text : String} :
    OneLine (paint color mark text) ↔ OneLine text := by
  rw [paint]
  split
  · simp only [oneLine_append, and_iff_left (oneLine_literal rfl : OneLine "\x1b[0m")]
    exact and_iff_right ⟨⟨oneLine_literal rfl, oneLine_repr _⟩, oneLine_literal rfl⟩
  · rfl

theorem oneLine_namedText {color : Bool} {field : String × FieldValue} :
    OneLine (namedText color field) ↔ FieldFits field := by
  rw [namedText, oneLine_append, oneLine_append, oneLine_paint, oneLine_paint,
    and_iff_left (oneLine_literal rfl)]
  exact ⟨fun h => ⟨h.1, h.2⟩, fun h => ⟨h.name, h.value⟩⟩

theorem oneLine_colon (color : Bool) : OneLine (colon color) :=
  oneLine_append.mpr ⟨oneLine_paint.mpr (oneLine_literal rfl), oneLine_literal rfl⟩

theorem oneLine_levelText (level : Level) : OneLine (levelText level) := by
  refine oneLine_append.mpr ⟨oneLine_replicate (by decide) _, ?_⟩
  cases level <;> exact oneLine_literal rfl

theorem oneLine_scopeText (color : Bool) {facts : NamedFields}
    (h : ∀ fact ∈ facts, FieldFits fact) : OneLine (scopeText color .review facts) := by
  rw [scopeText]
  split
  · exact oneLine_empty
  · have gap : OneLine " " := oneLine_literal rfl
    have inside := (oneLine_intercalate gap).mpr
      (List.forall_mem_map.mpr fun fact known => (@oneLine_namedText color fact).mpr (h fact known))
    simp only [oneLine_append, oneLine_paint]
    exact ⟨⟨⟨⟨oneLine_literal rfl, oneLine_literal rfl⟩, inside⟩, oneLine_literal rfl⟩,
      oneLine_colon color⟩

theorem oneLine_line {color : Bool} {time : String} (clock : OneLine time) {event : Event}
    (framed : Framed event) : OneLine (line color .review time event) ↔ Fits event := by
  have gap : OneLine " " := oneLine_literal rfl
  have scope := oneLine_scopeText color framed.context
  simp only [line, oneLine_append, oneLine_paint, clock, gap, oneLine_levelText, scope,
    framed.target, oneLine_colon, true_and, and_true, oneLine_intercalate gap,
    List.forall_mem_cons, List.forall_mem_map, oneLine_namedText]
  exact ⟨fun h => ⟨h.1, h.2⟩, fun h => ⟨h.message, h.fields⟩⟩

section

variable {name : String} (h : OneLine name)

include h

theorem fieldFits_text (value : String) : FieldFits (name, .text value) :=
  ⟨h, oneLine_quoted value⟩

theorem fieldFits_flag (value : Bool) : FieldFits (name, .flag value) :=
  ⟨h, oneLine_ite (oneLine_literal rfl) (oneLine_literal rfl)⟩

theorem fieldFits_natural (value : Nat) : FieldFits (name, .natural value) :=
  ⟨h, oneLine_repr value⟩

theorem fieldFits_plain {value : String} : FieldFits (name, .plain value) ↔ OneLine value :=
  ⟨fun field => field.value, fun text => ⟨h, text⟩⟩

end

/-! What is known about requests and responses -/

theorem fits_hostFact (host : String) : ∀ fact ∈ Http.hostFact host, FieldFits fact :=
  List.forall_mem_singleton.mpr (fieldFits_text (oneLine_literal rfl) host)

theorem fits_requestFacts (request : AdmissionRequest) :
    ∀ fact ∈ Gateway.requestFacts request, FieldFits fact := by
  simp only [Gateway.requestFacts, List.forall_mem_cons, List.not_mem_nil,
      IsEmpty.forall_iff, implies_true, and_true]
  and_intros <;> exact fieldFits_text (oneLine_literal rfl) _

theorem fits_responseFacts (response : AdmissionResponse) :
    ∀ fact ∈ Gateway.responseFacts response, FieldFits fact := by
  have status (status : AdmissionStatus) :
      ∀ fact ∈ Gateway.statusFacts status, FieldFits fact := by
    rw [Gateway.statusFacts, List.forall_mem_append]
    constructor
    · cases status.code with
      | none => exact List.forall_mem_nil _
      | some code =>
          exact List.forall_mem_singleton.mpr (fieldFits_natural (oneLine_literal rfl) _)
    · cases status.message with
      | none => exact List.forall_mem_nil _
      | some message =>
          exact List.forall_mem_singleton.mpr (fieldFits_text (oneLine_literal rfl) _)
  rw [Gateway.responseFacts, List.forall_mem_append, List.forall_mem_cons,
    List.forall_mem_singleton]
  refine ⟨⟨fieldFits_flag (oneLine_literal rfl) _, fieldFits_flag (oneLine_literal rfl) _⟩, ?_⟩
  cases response.status with
  | none => exact List.forall_mem_nil _
  | some s => exact status s

/-! The events -/

theorem fits_tooLarge : Fits Http.tooLarge where
  message := oneLine_literal rfl
  fields := by
    simp only [Http.tooLarge, List.forall_mem_cons, List.not_mem_nil,
      IsEmpty.forall_iff, implies_true, and_true]
    exact ⟨fieldFits_natural (oneLine_literal rfl) _, fieldFits_text (oneLine_literal rfl) _,
      fieldFits_text (oneLine_literal rfl) _⟩

theorem fits_replacement (policy : ImagePolicy) (c : Container) : Fits (policy.replacement c) where
  message := oneLine_literal rfl
  fields := by
    simp only [ImagePolicy.replacement, List.forall_mem_cons, List.not_mem_nil,
      IsEmpty.forall_iff, implies_true, and_true]
    and_intros <;> exact fieldFits_text (oneLine_literal rfl) _

theorem fits_allowedEvent (response : AdmissionResponse) :
    Fits (ImagePolicy.allowedEvent response) where
  message := oneLine_literal rfl
  fields := by
    simp only [ImagePolicy.allowedEvent, List.forall_mem_cons, List.not_mem_nil,
      IsEmpty.forall_iff, implies_true, and_true]
    exact ⟨fieldFits_text (oneLine_literal rfl) _, fieldFits_flag (oneLine_literal rfl) _⟩

theorem fits_rejectedEvent {request : AdmissionRequest} {error : MutationError} :
    Fits (ImagePolicy.rejectedEvent request error) ↔
      OneLine request.kind.display ∧ OneLine error.message := by
  have plain : Fits (ImagePolicy.rejectedEvent request error) ↔
      ∀ field ∈ (ImagePolicy.rejectedEvent request error).fields, FieldFits field :=
    ⟨fun h => h.fields, fun h => ⟨oneLine_literal rfl, h⟩⟩
  rw [plain, ImagePolicy.rejectedEvent]
  simp only [List.forall_mem_cons, List.not_mem_nil,
      IsEmpty.forall_iff, implies_true, and_true]
  rw [fieldFits_plain (oneLine_literal rfl), fieldFits_plain (oneLine_literal rfl)]
  exact and_iff_right (fieldFits_text (oneLine_literal rfl) _)

theorem fits_badRequest {error : GatewayError} (h : OneLine error.message) :
    Fits (Gateway.badRequest error) where
  message := oneLine_literal rfl
  fields := List.forall_mem_singleton.mpr ((fieldFits_plain (oneLine_literal rfl)).mpr h)

theorem oneLine_optionText {text : Option String} (h : ∀ s, text = some s → OneLine s) :
    OneLine (AdmissionAnswer.optionText text) := by
  cases text with
  | none => exact oneLine_literal rfl
  | some s =>
      exact oneLine_append.mpr
        ⟨oneLine_append.mpr ⟨oneLine_literal rfl, h s rfl⟩, oneLine_literal rfl⟩

theorem oneLine_optionMap {α : Type} {describe : α → String} (h : ∀ a, OneLine (describe a))
    (part : Option α) : OneLine (AdmissionAnswer.optionText (part.map describe)) := by
  refine oneLine_optionText fun s described => ?_
  obtain ⟨a, -, rfl⟩ := Option.map_eq_some_iff.mp described
  exact h a

theorem oneLine_statusText (status : AdmissionStatus) :
    OneLine (AdmissionAnswer.statusText status) := by
  have message := oneLine_optionMap oneLine_quoted status.message
  have code := oneLine_optionMap (fun n : UInt16 => oneLine_repr n.toNat) status.code
  unfold AdmissionAnswer.statusText
  simp only [oneLine_append]
  exact ⟨⟨⟨⟨oneLine_literal rfl, message⟩, oneLine_literal rfl⟩, code⟩, oneLine_literal rfl⟩

theorem oneLine_responseText (response : AdmissionResponse) :
    OneLine (AdmissionAnswer.responseText response) := by
  have verdict : OneLine (if response.allowed then "true" else "false") :=
    oneLine_ite (oneLine_literal rfl) (oneLine_literal rfl)
  have json : OneLine "JSONPatch" := oneLine_literal rfl
  have patchType := oneLine_optionMap (fun _ : PatchType => json) response.patchType
  have patch := oneLine_optionMap oneLine_quoted response.patch
  have status := oneLine_optionMap oneLine_statusText response.status
  unfold AdmissionAnswer.responseText
  simp only [oneLine_append, oneLine_quoted, verdict, patchType,
    patch, status, and_true]
  and_intros <;> exact oneLine_literal rfl

theorem oneLine_describe (answer : AdmissionAnswer) : OneLine answer.describe := by
  have kind := oneLine_optionMap oneLine_quoted answer.kind
  have apiVersion := oneLine_optionMap oneLine_quoted answer.apiVersion
  have response := oneLine_responseText answer.response
  unfold AdmissionAnswer.describe
  simp only [oneLine_append, kind, apiVersion, response, and_true]
  and_intros <;> exact oneLine_literal rfl

theorem fits_processed (answer : AdmissionAnswer) : Fits (Gateway.processed answer) where
  message := oneLine_literal rfl
  fields := List.forall_mem_singleton.mpr
    ((fieldFits_plain (oneLine_literal rfl)).mpr (oneLine_describe answer))

/-! What is wrong with a request -/

theorem discreet_ofBytes (body : Bytes) : Discreet (AdmissionReview.ofBytes body) :=
  (Shape.discreet_readDocument (by decide +kernel) _).map _

theorem discreet_ofJson (value : Json) : Discreet (Pod.ofJson value) :=
  (Shape.discreet_read Kubernetes.pod (by decide +kernel) _).map _

theorem oneLine_gatewayError {request : Http.Request} {error : GatewayError}
    (h : request.FailsAs error) : OneLine error.message := by
  cases h with
  | refused refused =>
      rw [Http.checkContentType] at refused
      split at refused
      · cases refused
      · cases refused
        exact oneLine_append.mpr
          ⟨oneLine_append.mpr ⟨oneLine_literal rfl, oneLine_quoted _⟩, oneLine_literal rfl⟩
  | unread unread =>
      exact oneLine_append.mpr ⟨oneLine_literal rfl,
        Mismatch.oneLine_describeIn (discreet_ofBytes request.body _ unread) _⟩

theorem oneLine_display_pod : OneLine GroupVersionKind.pod.display :=
  oneLine_append.mpr ⟨oneLine_append.mpr ⟨oneLine_literal rfl, oneLine_literal rfl⟩,
    oneLine_literal rfl⟩

/-- Only a kind that is written as it is can break the record of a rejection. -/
theorem fits_rejectedEvent_of_refused {request : AdmissionRequest} {error : MutationError}
    (h : request.Refused error) :
    Fits (ImagePolicy.rejectedEvent request error) ↔ OneLine request.kind.display := by
  rw [fits_rejectedEvent]
  cases h with
  | kind other =>
      refine ⟨fun h => h.1, fun kind => ⟨kind, oneLine_append.mpr ⟨?_, kind⟩⟩⟩
      exact oneLine_append.mpr
        ⟨oneLine_append.mpr ⟨oneLine_literal rfl, oneLine_display_pod⟩, oneLine_literal rfl⟩
  | missing pod none =>
      exact and_iff_left (oneLine_append.mpr ⟨oneLine_literal rfl, oneLine_literal rfl⟩)
  | malformed pod carries unread =>
      exact and_iff_left (oneLine_append.mpr ⟨oneLine_literal rfl, discreet_ofJson _ _ unread⟩)

/-! The events of a request -/

/-- All of some events are framed, and they all fit exactly if something is the case. -/
structure FitIff (events : List Event) (condition : Prop) : Prop where
  framed : ∀ event ∈ events, Framed event
  fit : (∀ event ∈ events, Fits event) ↔ condition

theorem FitIff.congr {events : List Event} {condition other : Prop} (h : FitIff events condition)
    (same : condition ↔ other) : FitIff events other :=
  ⟨h.framed, h.fit.trans same⟩

theorem FitIff.within {events : List Event} {condition : Prop} (h : FitIff events condition)
    {facts : NamedFields} (known : ∀ fact ∈ facts, FieldFits fact) :
    FitIff (events.map (Event.within facts)) condition where
  framed := List.forall_mem_map.mpr fun event member => (h.framed event member).within known
  fit := by simp only [List.forall_mem_map, fits_within, h.fit]

theorem FitIff.append {events others : List Event} {condition other : Prop}
    (h : FitIff events condition) (ho : FitIff others other) :
    FitIff (events ++ others) (condition ∧ other) where
  framed := List.forall_mem_append.mpr ⟨h.framed, ho.framed⟩
  fit := by rw [List.forall_mem_append, h.fit, ho.fit]

theorem fitIff_singleton {event : Event} {condition : Prop} (target : OneLine event.target)
    (context : event.context = []) (h : Fits event ↔ condition) : FitIff [event] condition where
  framed := List.forall_mem_singleton.mpr ⟨target, by simp [context]⟩
  fit := by rw [List.forall_mem_singleton, h]

theorem fitIff_encode (response : AdmissionResponse) :
    FitIff (Gateway.encode response).events True :=
  (fitIff_singleton (oneLine_literal rfl) rfl (iff_true_intro (fits_processed _))).within
    (fits_responseFacts response)

theorem fitIff_reject {error : GatewayError} (h : OneLine error.message) :
    FitIff (Gateway.reject error).events True := by
  have bad : FitIff [Gateway.badRequest error] True :=
    fitIff_singleton (oneLine_literal rfl) rfl (iff_true_intro (fits_badRequest h))
  exact (bad.append (fitIff_encode (Gateway.rejection error))).congr (and_self_iff)

theorem fitIff_handle (policy : ImagePolicy) (request : AdmissionRequest) :
    FitIff (policy.handle request).events (OneLine request.kind.display) := by
  rcases request.readable_or_refused with ⟨pod, asks⟩ | ⟨error, refused⟩
  · have replaced : FitIff ((policy.changed pod).map policy.replacement) True := by
      refine ⟨List.forall_mem_map.mpr fun c _ => ⟨oneLine_literal rfl, List.forall_mem_nil _⟩,
        iff_true_intro (List.forall_mem_map.mpr fun c _ => fits_replacement policy c)⟩
    have allowed : FitIff [ImagePolicy.allowedEvent (policy.handle request).value] True :=
      fitIff_singleton (oneLine_literal rfl) rfl (iff_true_intro (fits_allowedEvent _))
    have whole := replaced.append allowed
    rw [policy.events_handle_of_asksFor asks, asks.kind]
    exact whole.congr (iff_of_true ⟨trivial, trivial⟩ oneLine_display_pod)
  · rw [policy.events_handle_of_refused refused]
    exact fitIff_singleton (oneLine_literal rfl) rfl (fits_rejectedEvent_of_refused refused)

theorem fitIff_respond (host : String) (policy : ImagePolicy) {request : Http.Request}
    (posts : request.PostsReview) :
    FitIff (Http.respond host policy.handle request).events
      (∀ review, request.heard? = some review → OneLine review.request.kind.display) := by
  by_cases fits : request.body.length ≤ Http.maxBody
  · cases reads : request.review? with
    | some review =>
        have heard : request.heard? = some review := by rw [Http.Request.heard?, if_pos fits, reads]
        have handled := (fitIff_handle policy review.request).append
          (fitIff_encode (policy.handle review.request).value)
        rw [Http.respond_of_review host policy.handle posts fits reads]
        have whole := (handled.within (fits_requestFacts review.request)).within
          (fits_hostFact host)
        exact whole.congr (by simp [heard])
    | none =>
        have heard : request.heard? = none := by rw [Http.Request.heard?, if_pos fits, reads]
        obtain ⟨error, fails, answered⟩ := Http.respond_of_no_review host posts fits reads
        have whole := (fitIff_reject (oneLine_gatewayError fails)).within (fits_hostFact host)
        rw [answered]
        exact whole.congr (by simp [heard])
  · have heard : request.heard? = none := if_neg fits
    rw [Http.respond_of_postsReview host policy.handle posts,
      Http.mutate_of_large host policy.handle (Nat.lt_of_not_le fits)]
    have whole : FitIff [Http.tooLarge] True :=
      fitIff_singleton (oneLine_literal rfl) rfl (iff_true_intro fits_tooLarge)
    exact whole.congr (by simp [heard])

theorem fitIff_flatMap (host : String) (policy : ImagePolicy) {requests : List Http.Request}
    (posts : ∀ request ∈ requests, request.PostsReview) :
    FitIff (requests.flatMap fun request => (Http.respond host policy.handle request).events)
      (∀ request ∈ requests, ∀ review, request.heard? = some review →
        OneLine review.request.kind.display) := by
  induction requests with
  | nil => exact ⟨List.forall_mem_nil _, by simp⟩
  | cons request requests ih =>
      have first := fitIff_respond host policy (posts request List.mem_cons_self)
      have rest := ih fun r member => posts r (List.mem_cons_of_mem request member)
      rw [List.flatMap_cons]
      exact (first.append rest).congr (by simp only [List.forall_mem_cons])

theorem exists_of_mem_select {logger : Logger} {events : List Event} {event : Event}
    (h : event ∈ logger.select events) :
    ∃ whole ∈ events, event = whole ∨ event = { whole with context := [] } := by
  rw [Logger.select, Filter.select] at h
  obtain ⟨whole, taken, rfl⟩ := List.mem_map.mp h
  refine ⟨whole, List.mem_of_mem_filter taken, ?_⟩
  split
  · exact .inl rfl
  · exact .inr rfl

/-- All that is recorded about posted reviews is on one line for each event, in plain records and in
every log of text, if the kinds that are asked about have no line break; and of the records none
breaks only then. No other text of a request matters. -/
theorem oneLine_respondAll (host : String) (policy : ImagePolicy) (requests : List Http.Request)
    (posts : ∀ request ∈ requests, request.PostsReview) :
    ((∀ event ∈ (Http.respondAll host policy.handle requests).events,
        OneLine (recordText event)) ↔
      ∀ request ∈ requests, ∀ review, request.heard? = some review →
        OneLine review.request.kind.display) ∧
    ((∀ request ∈ requests, ∀ review, request.heard? = some review →
        OneLine review.request.kind.display) →
      ∀ filter color time, OneLine time →
        ∀ event ∈ (Logger.mk filter (.text color)).select
            (Http.respondAll host policy.handle requests).events,
          OneLine ((Logger.mk filter (.text color)).line time event)) := by
  have fit := fitIff_flatMap host policy posts
  rw [Http.events_respondAll]
  constructor
  · simp only [oneLine_recordText]
    exact fit.fit
  · intro kinds filter color time clock event taken
    obtain ⟨whole, member, rfl | rfl⟩ := exists_of_mem_select taken
    · exact (oneLine_line clock (fit.framed event member)).mpr (fit.fit.mpr kinds event member)
    · have fits := fit.fit.mpr kinds whole member
      have bare : Framed { whole with context := [] } :=
        ⟨(fit.framed whole member).target, List.forall_mem_nil _⟩
      exact (oneLine_line clock bare).mpr ⟨fits.message, fits.fields⟩

theorem oneLine_respondAll_broken_kind :
    let review : Json := .object [("request", .object
      [("kind", .array [.text "", .text "v1", .text "Po\nd"]), ("operation", .text "CREATE"),
        ("resource", .array [.text "", .text "v1", .text "pods"]), ("uid", .text "u")])]
    ∃ event ∈ (Http.respondAll "host" ImagePolicy.standard.handle [.posting review]).events,
      ¬ OneLine (recordText event) := by
  intro review
  have integral : review.Integral := by
    simp [review, Json.Integral, Json.IntegralMembers, Json.IntegralItems]
  obtain ⟨datum, read⟩ : ∃ datum, AdmissionReview.shape.readJson review = .ok datum := ⟨_, rfl⟩
  have heard := Http.heard?_posting integral (by decide) (by decide +kernel) read
  have all := (oneLine_respondAll "host" .standard [.posting review]
    (List.forall_mem_singleton.mpr ⟨rfl, rfl⟩)).1
  by_contra none
  push Not at none
  have kind := all.mp none _ (.head _) _ heard
  obtain rfl := Except.ok.inj read
  exact kind '\n' (by decide +kernel) (.inl rfl)

end Log

end PodWebhook
