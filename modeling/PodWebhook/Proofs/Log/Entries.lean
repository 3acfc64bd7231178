import PodWebhook.Log.Logger
import PodWebhook.Proofs.Json.Writing
import PodWebhook.Proofs.Log.Reports

/-!
Which request an entry of the JSON log is about. Each verdict leaves one entry, and from the entry
the facts of its own request can be read back, whatever texts they are: all but the name of the
object, for the log puts the name of the scope in its place.
-/

namespace PodWebhook

open Schema

namespace Log

def verdicts (events : List Event) : List Event :=
  events.filter fun e => e.target == ImagePolicy.handlerTarget

theorem verdicts_append (events others : List Event) :
    verdicts (events ++ others) = verdicts events ++ verdicts others :=
  List.filter_append ..

theorem verdicts_within (facts : NamedFields) (events : List Event) :
    verdicts (events.map (Event.within facts)) = (verdicts events).map (Event.within facts) := by
  rw [verdicts, List.filter_map]
  rfl

theorem verdicts_eq_nil {events : List Event}
    (h : ∀ event ∈ events, event.target ≠ ImagePolicy.handlerTarget) : verdicts events = [] := by
  rw [verdicts, List.filter_eq_nil_iff]
  simpa using h

/-- What the handler says at the end, whatever is known about the request. -/
structure IsVerdict (event : Event) : Prop where
  target : event.target = ImagePolicy.handlerTarget
  level : event.level = .info ∨ event.level = .warn
  fields : ∀ field ∈ event.fields, ∀ n, field.2 ≠ .natural n

theorem isVerdict_allowed (response : AdmissionResponse) :
    IsVerdict (ImagePolicy.allowedEvent response) :=
  ⟨rfl, .inl rfl, by simp [ImagePolicy.allowedEvent]⟩

theorem isVerdict_rejected (request : AdmissionRequest) (error : MutationError) :
    IsVerdict (ImagePolicy.rejectedEvent request error) :=
  ⟨rfl, .inr rfl, by simp [ImagePolicy.rejectedEvent]⟩

theorem IsVerdict.within {event : Event} (h : IsVerdict event) (facts : NamedFields) :
    IsVerdict (event.within facts) :=
  ⟨h.target, h.level, h.fields⟩

theorem verdicts_handle (policy : ImagePolicy) (request : AdmissionRequest) :
    ∃ event, IsVerdict event ∧ event.context = [] ∧
      verdicts (policy.handle request).events = [event] := by
  rcases request.readable_or_refused with ⟨pod, asks⟩ | ⟨error, refused⟩
  · refine ⟨_, isVerdict_allowed (policy.handle request).value, rfl, ?_⟩
    have other : "pod_mutator::mutation" ≠ ImagePolicy.handlerTarget := by decide
    have none : verdicts ((policy.changed pod).map policy.replacement) = [] :=
      verdicts_eq_nil (List.forall_mem_map.mpr fun _ _ => other)
    rw [policy.events_handle_of_asksFor asks, verdicts_append, none]
    rfl
  · refine ⟨_, isVerdict_rejected request error, rfl, ?_⟩
    rw [policy.events_handle_of_refused refused]
    rfl

theorem verdicts_encode (response : AdmissionResponse) :
    verdicts (Gateway.encode response).events = [] := rfl

theorem verdicts_reject (error : GatewayError) : verdicts (Gateway.reject error).events = [] :=
  rfl

theorem verdicts_answer (handler : Handler) (request : AdmissionRequest) :
    verdicts (Gateway.answer handler request).events =
      (verdicts (handler request).events).map (Event.within (Gateway.requestFacts request)) := by
  rw [Gateway.answer_eq, Logged.within, verdicts_within, verdicts_append, verdicts_encode,
    List.append_nil]

end Log

namespace Http

/-- The review in a request that is handed to the handler. -/
def Request.heard? (request : Request) : Option AdmissionReview :=
  if request.body.length ≤ maxBody then request.review? else none

theorem heard?_posting {review : Json} (integral : review.Integral)
    (shallow : review.depth ≤ Json.Document.maxDepth)
    (fits : (Request.posting review).body.length ≤ maxBody) {datum : Datum}
    (read : AdmissionReview.shape.readJson review = .ok datum) :
    (Request.posting review).heard? = some (.ofDatum datum) := by
  rw [Request.heard?, if_pos fits]
  exact review?_posting integral shallow read

end Http

namespace Log

def contextOf (host : String) (request : AdmissionRequest) : NamedFields :=
  Http.hostFact host ++ Gateway.requestFacts request

theorem verdicts_of_heard (host : String) (policy : ImagePolicy) {request : Http.Request}
    {review : AdmissionReview} (posts : request.PostsReview)
    (heard : request.heard? = some review) : ∃ event, IsVerdict event ∧
      event.context = contextOf host review.request ∧
      verdicts (Http.respond host policy.handle request).events = [event] := by
  rw [Http.Request.heard?] at heard
  split at heard
  · next fits =>
    obtain ⟨event, verdict, bare, only⟩ := verdicts_handle policy review.request
    refine ⟨_, (verdict.within (Gateway.requestFacts review.request)).within (Http.hostFact host),
      ?_, ?_⟩
    · simp [Event.within, bare, contextOf]
    · rw [Http.respond_of_review host policy.handle posts fits heard, Logged.within,
        verdicts_within, verdicts_answer, only]
      rfl
  · cases heard

theorem verdicts_of_unheard (host : String) (policy : ImagePolicy) {request : Http.Request}
    (posts : request.PostsReview) (unheard : request.heard? = none) :
    verdicts (Http.respond host policy.handle request).events = [] := by
  rw [Http.Request.heard?] at unheard
  split at unheard
  · next fits =>
    obtain ⟨error, -, answered⟩ := Http.respond_of_no_review host posts fits unheard
    rw [answered, Logged.within, verdicts_within, verdicts_reject]
    rfl
  · next large =>
    rw [Http.respond_of_postsReview host policy.handle posts,
      Http.mutate_of_large host policy.handle (Nat.lt_of_not_le large)]
    rfl

def Filter.upTo (level : Level) : Filter := ⟨none, none, [], some level⟩ :: Filter.muted

theorem opens_upTo (level : Level) :
    (Filter.upTo level).opens .review = wanted (some level) .info := rfl

theorem allows_upTo (level : Level) {event : Event} (h : IsVerdict event) :
    (Filter.upTo level).allows .review event = wanted (some level) event.level := by
  obtain ⟨severity, target, message, fields, context⟩ := event
  obtain rfl : target = ImagePolicy.handlerTarget := h.target
  have covering : (Filter.upTo level).filter (fun d =>
      d.coversEvent ⟨severity, ImagePolicy.handlerTarget, message, fields, context⟩) =
        [⟨none, none, [], some level⟩] := by
    simp [Filter.upTo, Filter.muted, Directive.quiet, Directive.coversEvent,
      Directive.isForEvents, Directive.coversTarget, ImagePolicy.handlerTarget]
  have inside : (Filter.upTo level).inside .review (Scope.review.entryFacts context) = none := rfl
  rw [Filter.allows, covering, inside]
  simp [wanted, Filter.limit, Filter.decisive]

/-- Once the log is as verbose as info it takes all verdicts, with what is known about them. -/
theorem verdicts_select {level : Level} (verbose : wanted (some level) .info = true)
    {events : List Event} (h : ∀ event ∈ verdicts events, IsVerdict event) :
    verdicts ((Filter.upTo level).select .review events) = verdicts events := by
  have taken : ∀ event ∈ verdicts events, (Filter.upTo level).allows .review event = true := by
    intro event member
    rw [allows_upTo level (h event member)]
    rcases (h event member).level with info | warn
    · rwa [info]
    · rw [warn]
      have less : Level.warn.verbosity ≤ Level.info.verbosity := by decide
      exact decide_eq_true (less.trans (of_decide_eq_true verbose))
  rw [Filter.select, opens_upTo, verbose]
  simp only [if_true, List.map_id']
  rw [verdicts, List.filter_comm]
  exact List.filter_eq_self.mpr taken

theorem make_of_verbose {name : String} (verbose : name ∈ ["info", "debug", "trace"])
    (color : Bool) : ∃ level, wanted (some level) .info = true ∧
      Logger.make name "json" color = .ok ⟨Filter.upTo level, .json⟩ := by
  simp only [List.mem_cons, List.not_mem_nil, or_false] at verbose
  rcases verbose with rfl | rfl | rfl
  · exact ⟨.info, rfl, rfl⟩
  · exact ⟨.debug, rfl, rfl⟩
  · exact ⟨.trace, rfl, rfl⟩

theorem verdicts_flatMap (host : String) (policy : ImagePolicy) {requests : List Http.Request}
    (posts : ∀ request ∈ requests, request.PostsReview) :
    List.Forall₂
      (fun event review => IsVerdict event ∧ event.context = contextOf host review.request)
      (verdicts (requests.flatMap fun request =>
        (Http.respond host policy.handle request).events))
      (requests.filterMap Http.Request.heard?) := by
  induction requests with
  | nil => exact .nil
  | cons request requests ih =>
      have first := posts request List.mem_cons_self
      have rest := ih fun r member => posts r (List.mem_cons_of_mem request member)
      rw [List.flatMap_cons, verdicts_append]
      cases heard : request.heard? with
      | none =>
          rw [verdicts_of_unheard host policy first heard, List.filterMap_cons_none heard]
          exact rest
      | some review =>
          obtain ⟨event, verdict, known, only⟩ := verdicts_of_heard host policy first heard
          rw [only, List.filterMap_cons_some heard]
          exact .cons ⟨verdict, known⟩ rest

def spanOf? (line : String) : Option Json := do
  let entry ← (Json.parse (Bytes.utf8 line)).toOption
  entry.get? "span"

def Textual (facts : NamedFields) : Prop :=
  ∀ fact ∈ facts, ∃ text, fact.2 = .text text

theorem textual_contextOf (host : String) (request : AdmissionRequest) :
    Textual (contextOf host request) := by
  simp [Textual, contextOf, Http.hostFact, Gateway.requestFacts]

theorem integral_valueJson {value : FieldValue} (h : ∀ n, value ≠ .natural n) :
    (valueJson value).Integral := by
  cases value with
  | text | plain | flag => trivial
  | natural n => exact absurd rfl (h n)

theorem depth_valueJson (value : FieldValue) : (valueJson value).depth = 0 := by
  cases value <;> rfl

theorem mem_scopeMembers {scope : Scope} {facts : NamedFields} {m : String × Json}
    (h : m ∈ Keyed.ofList (facts.map fun fact => (fact.1, valueJson fact.2)) ++
      [("name", .text scope.name)]) :
    m = ("name", .text scope.name) ∨ ∃ fact ∈ facts, m = (fact.1, valueJson fact.2) := by
  rcases List.mem_append.mp h with kept | last
  · obtain ⟨fact, mem, rfl⟩ := List.mem_map.mp (Keyed.mem_of_mem_ofList kept)
    exact .inr ⟨fact, mem, rfl⟩
  · exact .inl (List.mem_singleton.mp last)

theorem integral_scopeJson (scope : Scope) {facts : NamedFields} (h : Textual facts) :
    (scopeJson scope facts).Integral := by
  refine Json.integralMembers_iff.mpr fun m mem => ?_
  rcases mem_scopeMembers mem with rfl | ⟨fact, known, rfl⟩
  · trivial
  · obtain ⟨text, isText⟩ := h fact known
    rw [isText]
    trivial

theorem depth_scopeJson (scope : Scope) (facts : NamedFields) :
    (scopeJson scope facts).depth ≤ 1 := by
  refine Nat.succ_le_succ (Json.depthMembers_le fun m mem => ?_)
  rcases mem_scopeMembers mem with rfl | ⟨fact, _, rfl⟩
  · exact le_rfl
  · exact (depth_valueJson fact.2).le

theorem get?_scopeJson_name (scope : Scope) (facts : NamedFields) :
    (scopeJson scope facts).sorted.get? "name" = some (.text scope.name) := by
  rw [scopeJson, Json.get?_sorted_object, List.reverse_append]
  rfl

theorem get?_scopeJson (scope : Scope) {facts : NamedFields} (distinct : (facts.map (·.1)).Nodup)
    {name text : String} (other : "name" ≠ name) (mem : (name, .text text) ∈ facts) :
    (scopeJson scope facts).sorted.get? name = some (.text text) := by
  have found : Keyed.get? name (Keyed.ofList (facts.map fun fact => (fact.1, valueJson fact.2))) =
      some (.text text) := by
    refine Keyed.get?_ofList ?_ (List.mem_map.mpr ⟨_, mem, rfl⟩)
    rwa [List.map_map]
  rw [scopeJson, Json.get?_sorted_object, List.reverse_append, List.reverse_singleton,
    List.singleton_append, Keyed.get?, if_neg other,
    ← Keyed.get?_perm (List.reverse_perm _).symm (Keyed.ascending_ofList _).nodup, found]
  rfl

theorem integral_fieldsJson {event : Event} (h : IsVerdict event) :
    (fieldsJson event).Integral := by
  refine Json.integralMembers_iff.mpr (List.forall_mem_cons.mpr ⟨trivial, ?_⟩)
  exact List.forall_mem_map.mpr fun field mem => integral_valueJson (h.fields field mem)

theorem depth_fieldsJson (event : Event) : (fieldsJson event).depth ≤ 1 := by
  refine Nat.succ_le_succ (Json.depthMembers_le (List.forall_mem_cons.mpr ⟨le_rfl, ?_⟩))
  exact List.forall_mem_map.mpr fun field _ => (depth_valueJson field.2).le

theorem timedEntry_of_context (time : String) {event : Event} (known : event.context ≠ []) :
    timedEntry .review time event = .object
      [("timestamp", .text time), ("level", .text event.level.name),
        ("fields", fieldsJson event), ("target", .text event.target),
        ("span", scopeJson .review event.context),
        ("spans", .array [scopeJson .review event.context])] := by
  rw [timedEntry, entryMembers, List.isEmpty_eq_false_iff.mpr known]
  rfl

theorem spanOf?_line (filter : Filter) (time : String) {event : Event} (verdict : IsVerdict event)
    (known : event.context ≠ []) (textual : Textual event.context) :
    spanOf? ((Logger.mk filter .json).line time event) =
      some (scopeJson .review event.context).sorted := by
  have inside := integral_scopeJson .review textual
  have entry := timedEntry_of_context time known
  have integral : (timedEntry .review time event).Integral := by
    rw [entry]
    exact ⟨trivial, trivial, integral_fieldsJson verdict, trivial, inside, ⟨inside, trivial⟩,
      trivial⟩
  have shallow : (timedEntry .review time event).depth ≤ Json.Document.maxDepth := by
    have scope := depth_scopeJson .review event.context
    have fields := depth_fieldsJson event
    rw [entry]
    simp only [Json.depth, Json.depthMembers, Json.depthItems, Json.Document.maxDepth]
    omega
  have parsed := Json.parse_compact integral shallow
  rw [spanOf?, Logger.line, parsed, entry]
  exact Json.get?_sorted_object _ "span"

/-- A scope holds the facts about this request. Its name stands where that of the object should. -/
structure Identifies (request : AdmissionRequest) (scope : Json) : Prop where
  uid : scope.get? "request_uid" = some (.text request.uid)
  kind : scope.get? "kind" = some (.text request.kind.kind)
  group : scope.get? "kind_group" = some (.text request.kind.group)
  version : scope.get? "kind_version" = some (.text request.kind.version)
  operation : scope.get? "operation" = some (.text request.operation)
  namespaceName : scope.get? "namespace" = some (.text (request.namespaceName.getD ""))
  name : scope.get? "name" = some (.text "pod_mutation")

theorem identifies_scopeJson (host : String) (request : AdmissionRequest) :
    Identifies request (scopeJson .review (contextOf host request)).sorted := by
  have distinct : ((contextOf host request).map (·.1)).Nodup := by
    change ["host", "kind", "kind_group", "kind_version", "name", "namespace", "operation",
      "request_uid"].Nodup
    decide
  constructor
  case name => exact get?_scopeJson_name ..
  all_goals
    refine get?_scopeJson .review distinct (by decide) ?_
    simp [contextOf, Gateway.requestFacts]

/-- At every level that lets verdicts pass, each review that is heard leaves one verdict in the
log, in the order of the requests, and the scope in its line holds the facts about this very
request; only its name is lost. -/
theorem identifies_respondAll {level : String} (verbose : level ∈ ["info", "debug", "trace"])
    (color : Bool) (host : String) (policy : ImagePolicy) (requests : List Http.Request)
    (posts : ∀ request ∈ requests, request.PostsReview) :
    ∃ logger, Logger.make level "json" color = .ok logger ∧
      List.Forall₂
        (fun event review => ∀ time, ∃ scope,
          spanOf? (logger.line time event) = some scope ∧ Identifies review.request scope)
        (verdicts (logger.select (Http.respondAll host policy.handle requests).events))
        (requests.filterMap Http.Request.heard?) := by
  obtain ⟨limit, loud, made⟩ := make_of_verbose verbose color
  have heard := verdicts_flatMap host policy posts
  obtain ⟨verdict, -⟩ := (List.forall₂_and_left _ _).mp heard
  refine ⟨_, made, ?_⟩
  rw [Http.events_respondAll, Logger.select, verdicts_select loud verdict]
  refine heard.imp fun event review ⟨told, context⟩ time => ?_
  have known : event.context ≠ [] := by
    rw [context]
    exact List.cons_ne_nil _ _
  have textual := textual_contextOf host review.request
  rw [← context] at textual
  refine ⟨_, spanOf?_line _ time told known textual, ?_⟩
  rw [context]
  exact identifies_scopeJson host review.request

/-- A request about an object with a name; the scope in its line has another one. -/
theorem identifies_respondAll_named :
    let review : Json := .object [("request", .object
      [("kind", .array [.text "", .text "v1", .text "Node"]), ("name", .text "n1"),
        ("operation", .text "CREATE"),
        ("resource", .array [.text "", .text "v1", .text "nodes"]), ("uid", .text "u")])]
    ∃ logger event heard, Logger.make "info" "json" false = .ok logger ∧
      verdicts (logger.select (Http.respondAll "host" ImagePolicy.standard.handle
        [.posting review]).events) = [event] ∧
      (Http.Request.posting review).heard? = some heard ∧ heard.request.name = some "n1" ∧
      ∀ time, ∃ scope, spanOf? (logger.line time event) = some scope ∧
        scope.get? "request_uid" = some (.text "u") ∧
        scope.get? "name" = some (.text "pod_mutation") := by
  intro review
  have integral : review.Integral := by
    simp [review, Json.Integral, Json.IntegralMembers, Json.IntegralItems]
  obtain ⟨datum, read⟩ : ∃ datum, AdmissionReview.shape.readJson review = .ok datum := ⟨_, rfl⟩
  have heard := Http.heard?_posting integral (by decide) (by decide +kernel) read
  obtain ⟨logger, made, lines⟩ := @identifies_respondAll "info" (.head _) false "host" .standard
    [.posting review] (List.forall_mem_singleton.mpr ⟨rfl, rfl⟩)
  rw [List.filterMap_cons_some heard, List.filterMap_nil] at lines
  obtain ⟨event, others, told, none, only⟩ := List.forall₂_cons_right_iff.mp lines
  rw [List.forall₂_nil_right_iff.mp none] at only
  obtain rfl := Except.ok.inj read
  refine ⟨logger, event, _, made, only, heard, rfl, fun time => ?_⟩
  obtain ⟨scope, stands, identifies⟩ := told time
  exact ⟨scope, stands, identifies.uid, identifies.name⟩

end Log

end PodWebhook
