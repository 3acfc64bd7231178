import PodWebhook.Proofs.Admission.Answers
import PodWebhook.Proofs.Json.Layout
import PodWebhook.Proofs.Schema.Steady

/-!
An answer depends on the JSON of a review and not on its spelling. Two bodies that differ in blanks,
in escapes and in the order of members are read as the same review or as none; and where a review
has been read, nothing but the review tells what is answered.
-/

namespace PodWebhook

open Schema
open Json (Term unitsOf)

namespace AdmissionReview

theorem ofBytes_written {term : Term} {body : Bytes} (h : term.DocumentWritten body) :
    (ofBytes body).toOption =
      (shape.read (term.tree Json.Document.maxDepth)).toOption.map ofDatum := by
  obtain ⟨node, parsed, alike⟩ := Json.Document.ofBytes_written h
  have whole : ofBytes body = (shape.read node).map ofDatum := by
    rw [ofBytes, parsed, Shape.readDocument]
    cases shape.read node <;> rfl
  rw [whole, ← shape.steady_read alike]
  cases shape.read node <;> rfl

theorem ofBytes_reordered {term other : Term} {body body' : Bytes}
    (written : term.DocumentWritten body) (written' : other.DocumentWritten body')
    (distinct : term.Distinct) (_ : other.Distinct) (same : term.Reordered other) :
    (ofBytes body).toOption = (ofBytes body').toOption := by
  have alike := same.alike distinct Json.Document.maxDepth
  rw [ofBytes_written written, ofBytes_written written', shape.steady_read alike]

end AdmissionReview

namespace Gateway

def Refuses (text : String) : Prop :=
  ∃ message response, response.Denies "" message ∧
    AdmissionAnswer.ofBytes (Bytes.utf8 text) =
      .ok ⟨some "AdmissionReview", some "admission.k8s.io/v1", response⟩

theorem refuses_serve (handler : Handler) {body : Bytes} {mismatch : Mismatch}
    (h : AdmissionReview.ofBytes body = .error mismatch) :
    Refuses (serve handler body).value := by
  refine ⟨_, rejection (.transport (mismatch.describeIn body)), ⟨rfl, rfl, rfl, rfl, rfl⟩, ?_⟩
  simp only [serve_eq, h, value_reject]
  exact AdmissionAnswer.ofBytes_toText _

theorem serve_congr (handler : Handler) {body body' : Bytes} {review : AdmissionReview}
    (h : AdmissionReview.ofBytes body = .ok review)
    (same : AdmissionReview.ofBytes body' = .ok review) :
    serve handler body = serve handler body' := by
  simp only [serve_eq, h, same]

/-- Neither blanks nor escapes nor the order of members make a difference. Where a body is no review
the other is none, and both are refused; otherwise both are the same review and are answered by the
same text, which also tells why, if the object in it is no Pod. -/
theorem serve_reordered {term other : Term} {body body' : Bytes}
    (written : term.DocumentWritten body) (written' : other.DocumentWritten body')
    (distinct : term.Distinct) (distinct' : other.Distinct) (same : term.Reordered other) :
    ((∃ mismatch, AdmissionReview.ofBytes body = .error mismatch) ∧
      (∃ mismatch, AdmissionReview.ofBytes body' = .error mismatch) ∧
      ∀ policy : ImagePolicy,
        Refuses (serve policy.handle body).value ∧ Refuses (serve policy.handle body').value) ∨
    ∃ review, AdmissionReview.ofBytes body = .ok review ∧
      AdmissionReview.ofBytes body' = .ok review ∧ ∀ policy : ImagePolicy,
        (serve policy.handle body).value = (serve policy.handle body').value := by
  have agree := AdmissionReview.ofBytes_reordered written written' distinct distinct' same
  cases read : AdmissionReview.ofBytes body with
  | error mismatch =>
      cases read' : AdmissionReview.ofBytes body' with
      | error mismatch' =>
          exact .inl ⟨⟨mismatch, rfl⟩, ⟨mismatch', rfl⟩, fun policy =>
            ⟨refuses_serve policy.handle read, refuses_serve policy.handle read'⟩⟩
      | ok review =>
          rw [read, read'] at agree
          cases agree
  | ok review =>
      rw [read] at agree
      have read' := toOption_eq_some_iff.mp agree.symm
      exact .inr ⟨review, rfl, read', fun policy => by
        rw [serve_congr policy.handle read read']⟩

theorem serve_reordered_no_pod :
    let body := Bytes.utf8 ("\x7b\"request\":\x7b\"uid\":\"u\",\"kind\":[\"\",\"v1\",\"Pod\"]," ++
      "\"resource\":[\"\",\"v1\",\"pods\"],\"operation\":\"CREATE\",\"object\":[]\x7d\x7d")
    let body' := Bytes.utf8 (" \x7b\"request\":\x7b\"object\":[ ],\"operation\":\"CREATE\"," ++
      "\"resource\":[\"\",\"v1\",\"pods\"],\"kind\":[\"\",\"v1\",\"\\u0050od\"]," ++
      "\"uid\":\"u\"\x7d\x7d\n")
    ∃ review, AdmissionReview.ofBytes body = .ok review ∧
      AdmissionReview.ofBytes body' = .ok review ∧ ∀ policy : ImagePolicy,
        (serve policy.handle body).value = (serve policy.handle body').value := by
  intro body body'
  let list (names : List String) : Term := .array (names.map fun name => .text (unitsOf name))
  let members : List (List UInt16 × Term) :=
    [(unitsOf "uid", .text (unitsOf "u")), (unitsOf "kind", list ["", "v1", "Pod"]),
      (unitsOf "resource", list ["", "v1", "pods"]),
      (unitsOf "operation", .text (unitsOf "CREATE")), (unitsOf "object", .array [])]
  let review (members : List (List UInt16 × Term)) : Term :=
    .object [(unitsOf "request", .object members)]
  have same : (review members).Reordered (review members.reverse) :=
    @Term.Reordered.object _ [(unitsOf "request", .object members.reverse)] _ rfl
      (.cons (Term.reordered_perm (List.reverse_perm members).symm) .nil) (List.Perm.refl _)
  have distinct (others : List (List UInt16 × Term)) (order : others.Perm members) :
      (review others).Distinct := by
    have keys : (members.map (·.1)).Nodup := by decide +kernel
    have flat (names : List String) : (list names).Distinct :=
      .array (List.forall_mem_map.mpr fun _ _ => .text _)
    have each : ∀ m ∈ members, m.2.Distinct := by
      simp only [members, List.forall_mem_cons]
      exact ⟨.text _, flat _, flat _, .text _, .array (List.forall_mem_nil _),
        List.forall_mem_nil _⟩
    refine .object (List.nodup_singleton _) (List.forall_mem_singleton.mpr (.object ?_ ?_))
    · exact (order.map _).nodup_iff.mpr keys
    · exact fun m hm => each m (order.mem_iff.mp hm)
  -- the members as they stand in both bodies, and those that are spelled in another way
  have uid := Term.memberWritten_plain "uid" (by decide) (Term.written_plain "u" (by decide))
  have operation := Term.memberWritten_plain "operation" (by decide)
    (Term.written_plain "CREATE" (by decide))
  have resource := Term.memberWritten_plain "resource" (by decide)
    (.array (.comma (Term.written_plain "" (by decide))
      (.comma (Term.written_plain "v1" (by decide))
        (.bare (Term.written_plain "pods" (by decide))))))
  have kind {text : Bytes} (pod : Term.Written (.text (unitsOf "Pod")) text) :=
    Term.memberWritten_plain "kind" (by decide) (.array (.comma (Term.written_plain "" (by decide))
      (.comma (Term.written_plain "v1" (by decide)) (.bare pod))))
  have object {blank : Bytes} (h : Json.Blank blank) :=
    Term.memberWritten_plain "object" (by decide) (.emptyArray h)
  have written : (review members).DocumentWritten body := by
    have pod := Term.written_plain "Pod" (by decide)
    refine ⟨[], _, [], Json.blank_nil,
      .object (.bare (Term.memberWritten_plain "request" (by decide)
        (.object (.comma uid (.comma (kind pod) (.comma resource (.comma operation
          (.bare (object Json.blank_nil))))))))), Json.blank_nil, ?_⟩
    decide +kernel
  have written' : (review members.reverse).DocumentWritten body' := by
    have space : Json.Blank [0x20] := by simp [Json.Blank, Bytes.isBlank]
    have line : Json.Blank [0x0a] := by simp [Json.Blank, Bytes.isBlank]
    have escape : Json.FourDigits (0x50 : UInt16).toNat [0x30, 0x30, 0x35, 0x30] :=
      @Json.FourDigits.mk 0x30 0x30 0x35 0x30 0 0 5 0 rfl rfl rfl rfl
    have pod : Term.Written (.text (unitsOf "Pod")) _ :=
      .text (.cons (.unit escape) (Json.unitsSpelled_plain (show Json.Plain "od" by decide)))
    refine ⟨[0x20], _, [0x0a], space,
      .object (.bare (Term.memberWritten_plain "request" (by decide)
        (.object (.comma (object space) (.comma operation (.comma resource (.comma (kind pod)
          (.bare uid)))))))), line, ?_⟩
    decide +kernel
  rcases serve_reordered written written' (distinct members (List.Perm.refl _))
    (distinct members.reverse (List.reverse_perm members)) same with ⟨⟨mismatch, fails⟩, -⟩ | agree
  · have reads : (AdmissionReview.ofBytes body).toOption.isSome = true := by decide +kernel
    rw [fails] at reads
    cases reads
  · exact agree

end Gateway

end PodWebhook
