import PodWebhook.Proofs.Admission.Carrying
import PodWebhook.Proofs.Admission.Spelling
import PodWebhook.Proofs.Schema.Nulls

/-!
Reviews that are written and read again. A review that has been read from a text has a text of its
own, from which it is read as it was. No raw JSON that a review carries is null, for null stands for
a missing member; so nothing that has been read is lost when it is left out.
-/

namespace PodWebhook

open Schema
open Json (Term unitsOf)

variable {raw : Json → Prop}

namespace Schema

/-! What stands under a name when it has been written there -/

@[simp] theorem get?_maybe (name key : String) (datum : Option Datum) :
    Keyed.get? key (Fields.maybe name datum) = if name = key then datum else none := by
  have whole := get?_maybe_append name key datum []
  rw [List.append_nil] at whole
  rw [whole, Keyed.get?, Option.or_none]

theorem Fields.part?_eq {α : Type} {read : Datum → Option α} (write : α → Datum)
    (returns : ∀ a, read (write a) = some a) {name : String} {data : Fields} {value : Option α}
    (h : Keyed.get? name data = value.map write) : Fields.part? name data read = value := by
  rw [Fields.part?, h]
  cases value with
  | none => rfl
  | some a => exact returns a

theorem Fields.map_record?_eq {α : Type} {name : String} {data : Fields} {write : α → Fields}
    {read : Fields → α} (returns : ∀ a, read (write a) = a) {value : Option α}
    (h : Keyed.get? name data = value.map fun a => .record (write a)) :
    (Fields.record? name data).map read = value := by
  rw [Fields.record?, Fields.part?, h]
  cases value with
  | none => rfl
  | some a => exact congrArg some (returns a)

theorem HasField.ofRaw {value : Option Json} (h : ∀ v, value = some v → raw v ∧ v ≠ .null) :
    HasField raw .optional .any (value.map .json) := by
  cases value with
  | none => exact .absent
  | some v =>
      obtain ⟨known, notNull⟩ := h v rfl
      exact .optional (.any known) fun null => notNull (Datum.json.inj null)

end Schema

namespace GroupVersionKind

def toFields (k : GroupVersionKind) : Fields :=
  [("group", .text k.group), ("version", .text k.version), ("kind", .text k.kind)]

@[simp] theorem toDatum_eq (k : GroupVersionKind) : k.toDatum = .record k.toFields := rfl

theorem ofFields_toFields (k : GroupVersionKind) : ofFields k.toFields = k := rfl

theorem has_toDatum (k : GroupVersionKind) : shape.Has raw k.toDatum :=
  .record (.present (.required (.text _)) (.present (.required (.text _))
    (.present (.required (.text _)) .nil)))

end GroupVersionKind

namespace GroupVersionResource

def toFields (r : GroupVersionResource) : Fields :=
  [("group", .text r.group), ("version", .text r.version), ("resource", .text r.resource)]

@[simp] theorem toDatum_eq (r : GroupVersionResource) : r.toDatum = .record r.toFields := rfl

theorem ofFields_toFields (r : GroupVersionResource) : ofFields r.toFields = r := rfl

theorem has_toDatum (r : GroupVersionResource) : shape.Has raw r.toDatum :=
  .record (.present (.required (.text _)) (.present (.required (.text _))
    (.present (.required (.text _)) .nil)))

end GroupVersionResource

namespace AdmissionRequest

theorem has_toDatum {r : AdmissionRequest} (h : r.Writable raw) : shape.Has raw r.toDatum := by
  simp only [toDatum, List.append_assoc, List.cons_append, List.nil_append]
  refine .record (.present (.required (.text _)) ?_)
  refine .present (.required r.kind.has_toDatum) ?_
  refine .present (.required r.resource.has_toDatum) ?_
  refine .cons (.ofOption _ .text (by simp)) ?_
  refine .cons (.ofOption _ GroupVersionKind.has_toDatum (by simp)) ?_
  refine .cons (.ofOption _ GroupVersionResource.has_toDatum
    (by simp)) ?_
  refine .cons (.ofOption _ .text (by simp)) (.cons (.ofOption _ .text (by simp)) ?_)
  refine .present (.required (.text _)) (.present (.filled h.user) ?_)
  exact .cons (.ofRaw fun v found => h.objects v (.inl found))
    (.cons (.ofRaw fun v found => h.objects v (.inr found)) (.last (.ofOption _ .bool (by simp))))

theorem ofFields_toDatum (r : AdmissionRequest) {data : Fields} (h : r.toDatum = .record data) :
    ofFields data = r := by
  have same := Datum.record.inj h
  simp only [List.append_assoc, List.cons_append, List.nil_append] at same
  have uid : Fields.text? "uid" data = some r.uid := by rw [← same]; rfl
  have kind : Fields.record? "kind" data = some r.kind.toFields := by rw [← same]; rfl
  have resource : Fields.record? "resource" data = some r.resource.toFields := by
    rw [← same]
    rfl
  have subResource : Fields.text? "subResource" data = r.subResource :=
    Fields.part?_eq .text (fun _ => rfl) (by simp [← same, Keyed.get?])
  have requestKind : (Fields.record? "requestKind" data).map GroupVersionKind.ofFields =
      r.requestKind :=
    Fields.map_record?_eq GroupVersionKind.ofFields_toFields
      (by simp [← same, Keyed.get?])
  have requestResource : (Fields.record? "requestResource" data).map
      GroupVersionResource.ofFields = r.requestResource :=
    Fields.map_record?_eq GroupVersionResource.ofFields_toFields
      (by simp [← same, Keyed.get?])
  have name : Fields.text? "name" data = r.name :=
    Fields.part?_eq .text (fun _ => rfl) (by simp [← same, Keyed.get?])
  have namespaceName : Fields.text? "namespace" data = r.namespaceName :=
    Fields.part?_eq .text (fun _ => rfl) (by simp [← same, Keyed.get?])
  have operation : Fields.text? "operation" data = some r.operation :=
    Fields.part?_eq .text (fun _ => rfl) (by simp [← same, Keyed.get?])
  have userInfo : Fields.record? "userInfo" data = some r.userInfo := by
    simp [← same, Fields.record?, Keyed.get?]
  have object : Fields.json? "object" data = r.object :=
    Fields.part?_eq .json (fun _ => rfl) (by simp [← same, Keyed.get?])
  have oldObject : Fields.json? "oldObject" data = r.oldObject :=
    Fields.part?_eq .json (fun _ => rfl) (by simp [← same, Keyed.get?])
  have dryRun : Fields.bool? "dryRun" data = r.dryRun :=
    Fields.part?_eq .bool (fun _ => rfl) (by simp [← same, Keyed.get?])
  simp only [ofFields, Fields.text, uid, kind, resource, subResource, requestKind, requestResource,
    name, namespaceName, operation, userInfo, object, oldObject, dryRun, Option.getD_some]
  rfl

end AdmissionRequest

namespace AdmissionReview

def toText (r : AdmissionReview) : String := r.toDatum.toJson.compact

theorem has_toDatum {r : AdmissionReview} (h : r.request.Writable raw) :
    shape.Has raw r.toDatum := by
  simp only [toDatum, List.append_assoc]
  exact .record (.cons (.ofOption r.kind .text (by simp))
    (.cons (.ofOption r.apiVersion .text (by simp))
      (.present (.required (AdmissionRequest.has_toDatum h)) .nil)))

theorem ofDatum_toDatum (r : AdmissionReview) : ofDatum r.toDatum = r := by
  obtain ⟨kind, apiVersion, request⟩ := r
  obtain ⟨inner, written, read⟩ : ∃ inner, request.toDatum = .record inner ∧
      AdmissionRequest.ofFields inner = request :=
    ⟨_, rfl, request.ofFields_toDatum rfl⟩
  cases kind <;> cases apiVersion <;>
    simp [ofDatum, toDatum, ofFields, Fields.maybe, Fields.text?, Fields.record?, Keyed.get?,
      written, read]

theorem ofBytes_toText {r : AdmissionReview}
    (h : r.request.Writable fun value => value.Ordered ∧ Legible objectDepth value) :
    ofBytes (Bytes.utf8 r.toText) = .ok r := by
  have read : shape.readDocument (Json.Document.ofBytes (Bytes.utf8 r.toText)) = .ok r.toDatum :=
    Shape.readDocument_compact (fun _ known => known.1) (fun _ known => known.2) (by decide)
      (by decide) (has_toDatum h)
  rw [ofBytes, read]
  exact congrArg Except.ok r.ofDatum_toDatum

theorem ofBytes_nulled {term other : Term} {bytes body : Bytes}
    (written : term.DocumentWritten bytes) (written' : other.DocumentWritten body)
    (same : Relation.EqvGen (Nulled shape) term other) :
    (ofBytes bytes).toOption = (ofBytes body).toOption := by
  rw [ofBytes_written written, ofBytes_written written',
    Nulled.read_of_eqvGen same (by decide) (by decide)]

theorem write_eq (r : AdmissionReview) : r.toDatum.write.map Json.compact = .ok r.toText := by
  rw [Datum.write_eq]
  rfl

/-- A review can be written, and survives it. None of the objects that it carries is null. If the
numbers in them are integers its text is read as the same review, with every part as it was, and so
is written as the same text again. And null is the same as no member: another text, in which members
that may be left out are null or are missing instead, is read as the same review. -/
theorem survives {bytes : Bytes} {review : AdmissionReview} (h : ofBytes bytes = .ok review) :
    review.toDatum.write.map Json.compact = .ok review.toText ∧
    (∀ value, review.request.Carries value → value ≠ .null) ∧
    ((∀ value, review.request.Carries value → value.Integral) →
      ofBytes (Bytes.utf8 review.toText) = .ok review ∧
      ∀ again, ofBytes (Bytes.utf8 review.toText) = .ok again → again.toText = review.toText) ∧
    ∀ (term other : Term) (body : Bytes), term.DocumentWritten bytes →
      other.DocumentWritten body → Relation.EqvGen (Nulled shape) term other →
      ofBytes body = .ok review := by
  have writable := writable_of_ofBytes h
  refine ⟨review.write_eq, fun value carried => (writable.objects value carried).2,
    fun integral => ?_, fun term other body written written' same => ?_⟩
  · have back := ofBytes_toText (writable.imp fun value carried fine =>
      ⟨fine.1, integral value carried, fine.2⟩)
    refine ⟨back, fun again found => ?_⟩
    rw [back] at found
    rw [Except.ok.inj found]
  · rw [← toOption_eq_some_iff, ← ofBytes_nulled written written' same, h]
    rfl

theorem survives_deletion :
    let front := "\x7b\"request\":\x7b\"oldObject\":\x7b\"a\":[-1,null]\x7d," ++
      "\"kind\":[\"\",\"v1\",\"Pod\"],\"resource\":[\"\",\"v1\",\"pods\"],"
    let back := "\"operation\":\"DELETE\",\"options\":\"\",\"uid\":\"u\"\x7d"
    let body := Bytes.utf8 (front ++ back ++ "\x7d")
    let body' := Bytes.utf8 (front ++ "\"object\":null," ++ back ++ ",\"kind\":null\x7d")
    let old : Json := .object [("a", .array [.number (.int (-1)), .null])]
    ∃ review, ofBytes body = .ok review ∧ review.request.oldObject = some old ∧
      ofBytes (Bytes.utf8 review.toText) = .ok review ∧ ofBytes body' = .ok review := by
  intro front back body body' old
  let list (names : List String) : Term := .array (names.map fun name => .text (unitsOf name))
  let before : List (List UInt16 × Term) :=
    [(unitsOf "oldObject", .object [(unitsOf "a", .array [.number [0x2d, 0x31], .null])]),
      (unitsOf "kind", list ["", "v1", "Pod"]), (unitsOf "resource", list ["", "v1", "pods"])]
  let after : List (List UInt16 × Term) :=
    [(unitsOf "operation", .text (unitsOf "DELETE")), (unitsOf "options", .text (unitsOf "")),
      (unitsOf "uid", .text (unitsOf "u"))]
  let object : List UInt16 × Term := (unitsOf "object", .null)
  let term : Term := .object [(unitsOf "request", .object (before ++ after))]
  let middle : Term := .object [(unitsOf "request", .object (before ++ object :: after))]
  let other : Term :=
    .object [(unitsOf "request", .object (before ++ object :: after)), (unitsOf "kind", .null)]
  have nulled : Relation.EqvGen (Nulled shape) term other := by
    refine .trans term middle other (.rel _ _ ?_) (.rel _ _ ?_)
    · refine @Nulled.member _ _ _ "request" .required AdmissionRequest.shape (by simp) _
        (by decide +kernel) _ _ ?_ [] []
      exact @Nulled.here _ _ _ "object" .any (by simp) _ (by decide +kernel) before after
        (by decide +kernel)
    · exact @Nulled.here _ _ _ "kind" .text (by simp) _ (by decide +kernel)
        [(unitsOf "request", .object (before ++ object :: after))] [] (by decide +kernel)
  have minusOne : Json.NumberToken [0x2d, 0x31] :=
    @Json.NumberToken.mk true [0x31] (@Json.MagnitudeToken.mk [0x31] [] []
      ⟨List.forall_mem_singleton.mpr rfl, List.cons_ne_nil _ _⟩ (.inr (by decide)) .none .none)
  have names (last : String) (plain : Json.Plain last) :
      Term.Written (list ["", "v1", last]) _ :=
    .array (.comma (Term.written_plain "" (by decide)) (.comma (Term.written_plain "v1" (by decide))
      (.bare (Term.written_plain last plain))))
  -- the members as they stand in both bodies, and the null that stands in one of them
  have oldObject := Term.memberWritten_plain "oldObject" (by decide) (.object
    (.bare (Term.memberWritten_plain "a" (by decide)
      (.array (.comma (.number minusOne) (.bare .nullWord))))))
  have kind := Term.memberWritten_plain "kind" (by decide) (names "Pod" (by decide))
  have resource := Term.memberWritten_plain "resource" (by decide) (names "pods" (by decide))
  have operation := Term.memberWritten_plain "operation" (by decide)
    (Term.written_plain "DELETE" (by decide))
  have options := Term.memberWritten_plain "options" (by decide)
    (Term.written_plain "" (by decide))
  have uid := Term.memberWritten_plain "uid" (by decide) (Term.written_plain "u" (by decide))
  have null := Term.memberWritten_plain "object" (by decide) .nullWord
  have later := Json.Separated.comma operation (.comma options (.bare uid))
  have written : term.DocumentWritten body := by
    refine ⟨[], _, [], Json.blank_nil, .object (.bare (Term.memberWritten_plain "request"
      (by decide) (.object (.comma oldObject (.comma kind (.comma resource later)))))),
      Json.blank_nil, ?_⟩
    decide +kernel
  have written' : other.DocumentWritten body' := by
    refine ⟨[], _, [], Json.blank_nil, .object (.comma (Term.memberWritten_plain "request"
      (by decide) (.object (.comma oldObject (.comma kind (.comma resource (.comma null later))))))
      (.bare (Term.memberWritten_plain "kind" (by decide) .nullWord))), Json.blank_nil, ?_⟩
    decide +kernel
  have objects : (ofBytes body).toOption.map (fun review =>
      (review.request.object, review.request.oldObject)) = some (none, some old) := by
    decide +kernel
  obtain ⟨review, found, same⟩ := Option.map_eq_some_iff.mp objects
  have read := toOption_eq_some_iff.mp found
  obtain ⟨noObject, oldOne⟩ := Prod.mk.inj same
  have integral : ∀ value, review.request.Carries value → value.Integral := by
    rintro value (carried | carried)
    · rw [noObject] at carried
      cases carried
    · rw [oldOne] at carried
      cases carried
      simp [old, Json.Integral, Json.IntegralMembers, Json.IntegralItems, Json.Number.fits]
  obtain ⟨_, _, back, nulls⟩ := survives read
  exact ⟨review, read, oldOne, (back integral).1, nulls term other body' written written' nulled⟩

end AdmissionReview

end PodWebhook
