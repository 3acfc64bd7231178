import PodWebhook.Admission.Gateway
import PodWebhook.Proofs.Json.Writing
import PodWebhook.Proofs.Schema.Acceptance

/-!
Which texts are reviews, and what the gateway does with them. The rules stand here as they would be
told to whoever writes a review: which members there must be, which ones may be left out or null,
and what stands in a list in place of an object. A handler is called for reviews, once, and for
nothing else.
-/

namespace PodWebhook

open Schema

def IsText (value : Json) : Prop := ∃ s, value = .text s

def IsBool (value : Json) : Prop := ∃ b, value = .bool b

/-- A text under each of the names, once, or a list of as many texts. -/
def AreTexts (names : List String) (value : Json) : Prop :=
  (∃ members, value = .object members ∧ ∀ name ∈ names, Once name IsText members) ∨
    ∃ texts : List String, texts.length = names.length ∧ value = .array (texts.map .text)

def IsKind : Json → Prop := AreTexts ["group", "version", "kind"]

def IsResource : Json → Prop := AreTexts ["group", "version", "resource"]

def IsUser : Json → Prop := Kubernetes.userInfo.Accepts

structure RequestMembers (members : List (String × Json)) : Prop where
  uid : Once "uid" IsText members
  kind : Once "kind" IsKind members
  resource : Once "resource" IsResource members
  subResource : AtMostOnce "subResource" (OrNull IsText) members
  requestKind : AtMostOnce "requestKind" (OrNull IsKind) members
  requestResource : AtMostOnce "requestResource" (OrNull IsResource) members
  name : AtMostOnce "name" (OrNull IsText) members
  namespaceName : AtMostOnce "namespace" (OrNull IsText) members
  operation : Once "operation" IsText members
  userInfo : AtMostOnce "userInfo" IsUser members
  object : AtMostOnce "object" (fun _ => True) members
  oldObject : AtMostOnce "oldObject" (fun _ => True) members
  dryRun : AtMostOnce "dryRun" (OrNull IsBool) members

inductive RequestItems : List Json → Prop where
  | mk {uid kind resource subResource requestKind requestResource name namespaceName operation
      userInfo object oldObject dryRun : Json} (huid : IsText uid) (hkind : IsKind kind)
      (hresource : IsResource resource) (hsubResource : OrNull IsText subResource)
      (hrequestKind : OrNull IsKind requestKind)
      (hrequestResource : OrNull IsResource requestResource) (hname : OrNull IsText name)
      (hnamespace : OrNull IsText namespaceName) (hoperation : IsText operation)
      (huser : IsUser userInfo) (hdryRun : OrNull IsBool dryRun) :
      RequestItems [uid, kind, resource, subResource, requestKind, requestResource, name,
        namespaceName, operation, userInfo, object, oldObject, dryRun]

def IsRequest (value : Json) : Prop :=
  (∃ members, value = .object members ∧ RequestMembers members) ∨
    ∃ items, value = .array items ∧ RequestItems items

structure ReviewMembers (members : List (String × Json)) : Prop where
  kind : AtMostOnce "kind" (OrNull IsText) members
  apiVersion : AtMostOnce "apiVersion" (OrNull IsText) members
  request : Once "request" IsRequest members

inductive ReviewItems : List Json → Prop where
  | mk {kind apiVersion request : Json} (hkind : OrNull IsText kind)
      (hversion : OrNull IsText apiVersion) (hrequest : IsRequest request) :
      ReviewItems [kind, apiVersion, request]

def IsReview (value : Json) : Prop :=
  (∃ members, value = .object members ∧ ReviewMembers members) ∨
    ∃ items, value = .array items ∧ ReviewItems items

theorem forall₂_isText_iff {α : Type} (names : List α) (items : List Json) :
    List.Forall₂ (fun _ v => IsText v) names items ↔
      ∃ texts : List String, texts.length = names.length ∧ items = texts.map .text := by
  induction names generalizing items with
  | nil =>
      constructor
      · rintro ⟨⟩
        exact ⟨[], rfl, rfl⟩
      · rintro ⟨texts, hlength, rfl⟩
        rw [List.length_eq_zero_iff.mp hlength]
        exact .nil
  | cons name names ih =>
      constructor
      · intro h
        obtain _ | ⟨⟨s, rfl⟩, tail⟩ := h
        obtain ⟨texts, hlength, rfl⟩ := (ih _).mp tail
        exact ⟨s :: texts, by simp [hlength], rfl⟩
      · rintro ⟨texts, hlength, rfl⟩
        cases texts with
        | nil => simp at hlength
        | cons s texts => exact .cons ⟨s, rfl⟩ ((ih _).mpr ⟨texts, by simpa using hlength, rfl⟩)

theorem accepts_texts {title : String} (names : List String) {last : String}
    (distinct : (Shape.record .plain title
      (names.map fun n => (n, .required, .text))).distinct = true)
    (hlast : last ∈ names.getLast?) (value : Json) :
    (Shape.record .plain title (names.map fun n => (n, .required, .text))).Accepts value ↔
      AreTexts names value := by
  have lastField : (last, Presence.required, Shape.text) ∈
      (names.map fun n => (n, Presence.required, Shape.text)).getLast? := by
    rw [List.getLast?_map]
    simp [Option.mem_def.mp hlast]
  have fits : ∀ (n : String) (v : Json), Shape.Fits (n, .required, .text) v ↔ IsText v := by
    intro n v
    simp [Shape.Fits, Presence.admitsNull, Shape.accepts_text, IsText]
  have given : ∀ (n : String) (members : List (String × Json)),
      Shape.Given (n, .required, .text) members ↔ Once n IsText members :=
    fun n members => Once.congr Shape.accepts_text members
  rw [Shape.accepts_plain distinct lastField (by simp), AreTexts]
  simp only [List.forall_mem_map, given, List.forall₂_map_left_iff, fits, forall₂_isText_iff]
  refine or_congr Iff.rfl ⟨?_, ?_⟩
  · rintro ⟨items, rfl, texts, hlength, rfl⟩
    exact ⟨texts, hlength, rfl⟩
  · rintro ⟨texts, hlength, rfl⟩
    exact ⟨_, rfl, texts, hlength, rfl⟩

theorem accepts_kind (value : Json) : GroupVersionKind.shape.Accepts value ↔ IsKind value :=
  accepts_texts ["group", "version", "kind"] rfl rfl value

theorem accepts_resource (value : Json) :
    GroupVersionResource.shape.Accepts value ↔ IsResource value :=
  accepts_texts ["group", "version", "resource"] rfl rfl value

theorem accepts_user (value : Json) : Kubernetes.userInfo.Accepts value ↔ IsUser value := Iff.rfl

theorem orNull_any (value : Json) : OrNull Shape.any.Accepts value ↔ True :=
  iff_true_intro (.inr (Shape.accepts_any value))

theorem fits_required (name : String) (shape : Shape) (value : Json) :
    Shape.Fits (name, .required, shape) value ↔ shape.Accepts value := by
  simp [Shape.Fits, Presence.admitsNull]

theorem fits_filled (name : String) (shape : Shape) (value : Json) :
    Shape.Fits (name, .filled, shape) value ↔ shape.Accepts value := by
  simp [Shape.Fits, Presence.admitsNull]

theorem fits_optional (name : String) (shape : Shape) (value : Json) :
    Shape.Fits (name, .optional, shape) value ↔ OrNull shape.Accepts value := by
  simp [Shape.Fits, Presence.admitsNull, OrNull]

theorem accepts_request (value : Json) :
    AdmissionRequest.shape.Accepts value ↔ IsRequest value := by
  have text : ∀ v, Shape.text.Accepts v ↔ IsText v := Shape.accepts_text
  have bool : ∀ v, Shape.bool.Accepts v ↔ IsBool v := Shape.accepts_bool
  rw [AdmissionRequest.shape, Shape.accepts_plain (by decide) rfl (by simp), IsRequest]
  refine or_congr ?_ ?_
  · simp only [List.forall_mem_cons, Shape.Given, Once.congr text, Once.congr accepts_kind,
      Once.congr accepts_resource, AtMostOnce.congr (OrNull.congr text),
      AtMostOnce.congr (OrNull.congr accepts_kind),
      AtMostOnce.congr (OrNull.congr accepts_resource), AtMostOnce.congr accepts_user,
      AtMostOnce.congr orNull_any, AtMostOnce.congr (OrNull.congr bool)]
    refine exists_congr fun members => and_congr_right fun _ => ⟨?_, ?_⟩
    · rintro ⟨h1, h2, h3, h4, h5, h6, h7, h8, h9, h10, h11, h12, h13, -⟩
      exact ⟨h1, h2, h3, h4, h5, h6, h7, h8, h9, h10, h11, h12, h13⟩
    · rintro ⟨h1, h2, h3, h4, h5, h6, h7, h8, h9, h10, h11, h12, h13⟩
      exact ⟨h1, h2, h3, h4, h5, h6, h7, h8, h9, h10, h11, h12, h13, by simp⟩
  · refine exists_congr fun items => and_congr_right fun _ => ?_
    simp only [List.forall₂_cons_left_iff, List.forall₂_nil_left_iff, fits_required,
      fits_optional, fits_filled, text, accepts_kind, accepts_resource, accepts_user,
      orNull_any, OrNull.congr text, OrNull.congr accepts_kind, OrNull.congr accepts_resource,
      OrNull.congr bool]
    constructor
    · rintro ⟨_, _, h1, ⟨_, _, h2, ⟨_, _, h3, ⟨_, _, h4, ⟨_, _, h5, ⟨_, _, h6, ⟨_, _, h7, ⟨_, _,
        h8, ⟨_, _, h9, ⟨_, _, h10, ⟨_, _, -, ⟨_, _, -, ⟨_, _, h13, rfl, rfl⟩, rfl⟩, rfl⟩, rfl⟩,
        rfl⟩, rfl⟩, rfl⟩, rfl⟩, rfl⟩, rfl⟩, rfl⟩, rfl⟩, rfl⟩
      exact .mk h1 h2 h3 h4 h5 h6 h7 h8 h9 h10 h13
    · rintro ⟨h1, h2, h3, h4, h5, h6, h7, h8, h9, h10, h13⟩
      exact ⟨_, _, h1, ⟨_, _, h2, ⟨_, _, h3, ⟨_, _, h4, ⟨_, _, h5, ⟨_, _, h6, ⟨_, _, h7, ⟨_, _,
        h8, ⟨_, _, h9, ⟨_, _, h10, ⟨_, _, trivial, ⟨_, _, trivial, ⟨_, _, h13, rfl, rfl⟩, rfl⟩,
        rfl⟩, rfl⟩, rfl⟩, rfl⟩, rfl⟩, rfl⟩, rfl⟩, rfl⟩, rfl⟩, rfl⟩, rfl⟩

theorem accepts_review (value : Json) :
    AdmissionReview.shape.Accepts value ↔ IsReview value := by
  have text : ∀ v, Shape.text.Accepts v ↔ IsText v := Shape.accepts_text
  rw [AdmissionReview.shape, Shape.accepts_plain (by decide) rfl (by simp), IsReview]
  refine or_congr ?_ ?_
  · simp only [List.forall_mem_cons, Shape.Given, Once.congr accepts_request,
      AtMostOnce.congr (OrNull.congr text)]
    refine exists_congr fun members => and_congr_right fun _ => ⟨?_, ?_⟩
    · rintro ⟨kind, version, request, -⟩
      exact ⟨kind, version, request⟩
    · rintro ⟨kind, version, request⟩
      exact ⟨kind, version, request, by simp⟩
  · refine exists_congr fun items => and_congr_right fun _ => ?_
    simp only [List.forall₂_cons_left_iff, List.forall₂_nil_left_iff, fits_required,
      fits_optional, accepts_request, OrNull.congr text]
    constructor
    · rintro ⟨_, _, kind, ⟨_, _, version, ⟨_, _, request, rfl, rfl⟩, rfl⟩, rfl⟩
      exact .mk kind version request
    · rintro ⟨kind, version, request⟩
      exact ⟨_, _, kind, ⟨_, _, version, ⟨_, _, request, rfl, rfl⟩, rfl⟩, rfl⟩

namespace Gateway

/-- A handler that reports one event of a target of its own each time it is called. -/
def Marks (target : String) (handler : Handler) : Prop :=
  target ≠ Gateway.target ∧
    ∀ request, (handler request).events.countP (fun e => e.target == target) = 1

def Calls (body : Bytes) (count : Nat) : Prop :=
  ∀ target handler, Marks target handler →
    (serve handler body).events.countP (fun e => e.target == target) = count

theorem exists_marks : ∃ target handler, Marks target handler :=
  ⟨"mark", fun request => ⟨.allow request.uid, [⟨.info, "mark", "", [], []⟩]⟩, by decide,
    fun _ => rfl⟩

theorem count_encode {target : String} (h : target ≠ Gateway.target)
    (response : AdmissionResponse) :
    (encode response).events.countP (fun e => e.target == target) = 0 := by
  simp [encode_eq, processed, Event.within, Ne.symm h]

theorem count_reject {target : String} (h : target ≠ Gateway.target) (error : GatewayError) :
    (reject error).events.countP (fun e => e.target == target) = 0 := by
  rw [reject_eq, List.countP_cons, count_encode h]
  simp [badRequest, Ne.symm h]

theorem count_answer {target : String} {handler : Handler} (h : Marks target handler)
    (request : AdmissionRequest) :
    (answer handler request).events.countP (fun e => e.target == target) = 1 := by
  have target_within : (fun e : Event => e.target == target) ∘ Event.within (requestFacts request) =
      fun e => e.target == target := rfl
  rw [answer_eq, Logged.within, List.countP_map, target_within, List.countP_append, h.2,
    count_encode h.1]

theorem serve_of_accepts {value : Json} {body : Bytes} (h : Json.DocumentSpelled value body)
    (deep : value.depth ≤ Json.Document.maxDepth) :
    (AdmissionReview.shape.Accepts value →
      ∃ request, ∀ handler, serve handler body = answer handler request) ∧
    (¬ AdmissionReview.shape.Accepts value →
      ∃ error, ∀ handler, serve handler body = reject error) := by
  have read := AdmissionReview.shape.readDocument_spelled (by decide) h deep
  rw [Shape.accepts_iff_isSome, ← read]
  simp only [serve_eq, AdmissionReview.ofBytes]
  cases AdmissionReview.shape.readDocument (Json.Document.ofBytes body) with
  | ok datum => exact ⟨fun _ => ⟨_, fun _ => rfl⟩, fun refused => absurd rfl refused⟩
  | error mismatch => exact ⟨fun accepted => (nomatch accepted), fun _ => ⟨_, fun _ => rfl⟩⟩

/-- A handler is called for a text, once, if the text is a review, and not at all otherwise. What it
answers is what the gateway sends. -/
theorem calls_iff_isReview {value : Json} {body : Bytes} (h : Json.DocumentSpelled value body)
    (shallow : value.depth ≤ 100) :
    (Calls body 1 ↔ IsReview value) ∧ (Calls body 0 ↔ ¬ IsReview value) ∧
      (IsReview value → ∃ request, ∀ handler, serve handler body = answer handler request) := by
  have deep : value.depth ≤ Json.Document.maxDepth := Nat.le_trans shallow (by decide)
  obtain ⟨accepted, refused⟩ := serve_of_accepts h deep
  rw [accepts_review] at accepted refused
  obtain ⟨target, handler, marks⟩ := exists_marks
  have once : IsReview value → Calls body 1 := by
    intro review target handler marks
    obtain ⟨request, answers⟩ := accepted review
    rw [answers, count_answer marks]
  have never : ¬ IsReview value → Calls body 0 := by
    intro other target handler marks
    obtain ⟨error, rejects⟩ := refused other
    rw [rejects, count_reject marks.1]
  -- a text cannot call the marking handler both ways
  have apart : Calls body 1 → ¬ Calls body 0 := by
    intro one zero
    have counted := one target handler marks
    rw [zero target handler marks] at counted
    exact absurd counted (by decide)
  refine ⟨⟨fun one => ?_, once⟩, ⟨fun zero review => apart (once review) zero, never⟩, accepted⟩
  by_contra other
  exact apart one (never other)

theorem calls_brief_review :
    let kind : Json :=
      .object [("group", .text ""), ("kind", .text "Pod"), ("version", .text "v1")]
    let resource : Json := .array [.text "", .text "v1", .text "pods"]
    let members : List (String × Json) :=
      [("kind", kind), ("operation", .text "CREATE"), ("resource", resource), ("uid", .text "u")]
    let review : Json := .object [("kind", .null), ("request", .object members)]
    let twice : Json := .object [("request", .object (("uid", .text "v") :: members))]
    Calls (Bytes.utf8 review.compact) 1 ∧ Calls (Bytes.utf8 twice.compact) 0 := by
  intro kind resource members review twice
  have spelled : Json.DocumentSpelled review (Bytes.utf8 review.compact) :=
    Json.documentSpelled_compact (by simp [review, members, kind, resource, Json.Integral,
      Json.IntegralMembers, Json.IntegralItems])
  have spelledTwice : Json.DocumentSpelled twice (Bytes.utf8 twice.compact) :=
    Json.documentSpelled_compact (by simp [twice, members, kind, resource, Json.Integral,
      Json.IntegralMembers, Json.IntegralItems])
  have isKind : IsKind kind := .inl ⟨_, rfl, by
    simp [Once, occurrences, IsText]⟩
  have isResource : IsResource resource := .inr ⟨["", "v1", "pods"], rfl, rfl⟩
  have isReview : IsReview review := by
    refine .inl ⟨_, rfl, .inr ⟨.null, rfl, .inl rfl⟩, .inl rfl, _, rfl, .inl ⟨members, rfl, ?_⟩⟩
    exact {
      uid := ⟨_, rfl, _, rfl⟩, kind := ⟨_, rfl, isKind⟩, resource := ⟨_, rfl, isResource⟩
      subResource := .inl rfl, requestKind := .inl rfl, requestResource := .inl rfl
      name := .inl rfl, namespaceName := .inl rfl, operation := ⟨_, rfl, _, rfl⟩
      userInfo := .inl rfl, object := .inl rfl, oldObject := .inl rfl, dryRun := .inl rfl }
  have notReview : ¬ IsReview twice := by
    intro isReview
    obtain ⟨_, same, kinds⟩ | ⟨_, same, _⟩ := isReview
    · obtain ⟨request, found, isRequest⟩ := Json.object.inj same ▸ kinds.request
      obtain rfl : .object (("uid", .text "v") :: members) = request :=
        List.head_eq_of_cons_eq found
      obtain ⟨_, same, fields⟩ | ⟨_, same, _⟩ := isRequest
      · obtain ⟨uid, uids, _⟩ := Json.object.inj same ▸ fields.uid
        have two : occurrences "uid" (("uid", .text "v") :: members) = [.text "v", .text "u"] := rfl
        rw [two] at uids
        cases uids
      · cases same
    · simp [twice] at same
  exact ⟨(calls_iff_isReview spelled (by decide)).1.mpr isReview,
    (calls_iff_isReview spelledTwice (by decide)).2.1.mpr notReview⟩

end Gateway

end PodWebhook
