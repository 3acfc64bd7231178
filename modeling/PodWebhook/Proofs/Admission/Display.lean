import PodWebhook.Proofs.Admission.Verdict
import PodWebhook.Proofs.Text.Fronts

/-!
Whether a kind can be told from its display. A slash ends the group and a comma what is in front of
the kind, so kinds with neither there are displayed alike only if they are alike. A Pod is displayed
with one comma and no slash, which no other kind can imitate, whatever its parts are.
-/

namespace PodWebhook

namespace GroupVersionKind

/-- Neither the group nor the version has a character that ends a part. -/
def Plain (k : GroupVersionKind) : Prop :=
  ∀ part ∈ [k.group, k.version], '/' ∉ part.toList ∧ ',' ∉ part.toList

instance : DecidablePred Plain := fun k =>
  inferInstanceAs (Decidable (∀ part ∈ [k.group, k.version], _))

variable {a b k : GroupVersionKind}

theorem toList_display (k : GroupVersionKind) :
    k.display.toList = k.apiVersion.toList ++ ',' :: (" Kind=".toList ++ k.kind.toList) := by
  simp [display, String.toList_append]

theorem apiVersion_core (h : k.group = "") : k.apiVersion = k.version := by
  rw [apiVersion, if_pos (String.isEmpty_iff.mpr h)]

theorem toList_apiVersion (h : k.group ≠ "") :
    k.apiVersion.toList = k.group.toList ++ '/' :: k.version.toList := by
  rw [apiVersion, if_neg (mt String.isEmpty_iff.mp h)]
  simp [String.toList_append]

theorem Plain.group (h : k.Plain) : '/' ∉ k.group.toList ∧ ',' ∉ k.group.toList :=
  h _ List.mem_cons_self

theorem Plain.version (h : k.Plain) : '/' ∉ k.version.toList ∧ ',' ∉ k.version.toList :=
  h _ (List.mem_cons_of_mem _ List.mem_cons_self)

theorem mem_apiVersion {c : Char} {part : String} (among : part ∈ [k.group, k.version])
    (member : c ∈ part.toList) : c ∈ k.apiVersion.toList := by
  by_cases core : k.group = ""
  · rw [apiVersion_core core]
    simp only [core, List.mem_cons, List.not_mem_nil, or_false] at among
    rcases among with rfl | rfl
    · cases member
    · exact member
  · rw [toList_apiVersion core]
    simp only [List.mem_cons, List.not_mem_nil, or_false] at among
    rcases among with rfl | rfl
    · exact List.mem_append_left _ member
    · exact List.mem_append_right _ (List.mem_cons_of_mem _ member)

theorem Plain.comma_notMem (h : k.Plain) : ',' ∉ k.apiVersion.toList := by
  by_cases core : k.group = ""
  · rw [apiVersion_core core]
    exact h.version.2
  · rw [toList_apiVersion core]
    simp [h.group.2, h.version.2]

theorem Plain.slash_mem_iff (h : k.Plain) : '/' ∈ k.apiVersion.toList ↔ k.group ≠ "" := by
  by_cases core : k.group = ""
  · rw [apiVersion_core core]
    exact iff_of_false h.version.1 (not_not_intro core)
  · rw [toList_apiVersion core]
    exact iff_of_true List.mem_append_cons_self core

theorem Plain.apiVersion_inj (ha : a.Plain) (hb : b.Plain) :
    a.apiVersion = b.apiVersion ↔ a.group = b.group ∧ a.version = b.version := by
  constructor
  · intro same
    have cores : a.group = "" ↔ b.group = "" := by
      have slashes := ha.slash_mem_iff.symm.trans (same ▸ hb.slash_mem_iff)
      exact not_iff_not.mp slashes
    by_cases core : a.group = ""
    · have core' := cores.mp core
      rw [apiVersion_core core, apiVersion_core core'] at same
      exact ⟨core.trans core'.symm, same⟩
    · have lists := congrArg String.toList same
      rw [toList_apiVersion core, toList_apiVersion (mt cores.mpr core),
        Text.append_cons_inj_of_first ha.group.1 hb.group.1] at lists
      exact ⟨String.toList_inj.mp lists.1, String.toList_inj.mp lists.2⟩
  · rintro ⟨group, version⟩
    rw [apiVersion, apiVersion, group, version]

theorem Plain.display_inj (ha : a.Plain) (hb : b.Plain) : a.display = b.display ↔ a = b := by
  constructor
  · intro same
    have lists := congrArg String.toList same
    rw [toList_display, toList_display,
      Text.append_cons_inj_of_first ha.comma_notMem hb.comma_notMem,
      List.append_cancel_left_eq] at lists
    obtain ⟨group, version⟩ := (ha.apiVersion_inj hb).mp (String.toList_inj.mp lists.1)
    exact agrees_iff.mp (by simp [agrees, group, version, String.toList_inj.mp lists.2])
  · rintro rfl
    rfl

theorem plain_of_display (slash : '/' ∉ k.display.toList)
    (comma : k.display.toList.count ',' ≤ 1) : k.Plain := by
  rw [toList_display] at slash comma
  intro part among
  refine ⟨fun member => slash (List.mem_append_left _ (mem_apiVersion among member)), ?_⟩
  intro member
  -- the kind has a comma in front of it already
  have first := List.count_pos_iff.mpr (mem_apiVersion among member)
  rw [List.count_append, List.count_cons_self] at comma
  omega

theorem display_eq_display_pod_iff : k.display = pod.display ↔ k = pod := by
  refine ⟨fun same => ?_, congrArg display⟩
  have plain : k.Plain := plain_of_display (by rw [same]; decide) (by rw [same]; decide)
  exact (plain.display_inj (by decide)).mp same

end GroupVersionKind

namespace ImagePolicy

theorem kinds_of_patchFor {policy : ImagePolicy} {request : AdmissionRequest}
    {expected actual : GroupVersionKind}
    (h : (policy.patchFor request).value = .error (.kindMismatch expected actual)) :
    expected = .pod ∧ actual = request.kind ∧ request.kind ≠ .pod := by
  rcases request.readable_or_refused with ⟨pod, asks⟩ | ⟨error, refused⟩
  · rw [policy.patchFor_of_asksFor asks] at h
    cases h
  · rw [policy.patchFor_of_refused refused] at h
    obtain rfl := Except.error.inj h
    cases refused with
    | kind other => exact ⟨rfl, rfl, other⟩

end ImagePolicy

namespace GroupVersionKind

/-- Kinds without slashes and commas in group and version are displayed alike exactly if they agree,
and nothing but the kind of a Pod is displayed as that of a Pod. So the two kinds in the text that a
mismatch is answered with differ as they are displayed. -/
theorem display_unambiguous :
    (∀ a b : GroupVersionKind, a.Plain → b.Plain →
      (a.display = b.display ↔ a.agrees b = true)) ∧
    (∀ k : GroupVersionKind, k.display = "v1, Kind=Pod" ↔ pod.agrees k = true) ∧
    ∀ (policy : ImagePolicy) (request : AdmissionRequest) (expected actual : GroupVersionKind),
      (policy.patchFor request).value = .error (.kindMismatch expected actual) →
        expected.display ≠ actual.display ∧
          (policy.handle request).value.Denies request.uid
            ("expected " ++ expected.display ++ " but request declares " ++ actual.display) := by
  refine ⟨fun a b plain plain' => ?_, fun k => ?_, ?_⟩
  · rw [plain.display_inj plain', agrees_iff]
  · rw [agrees_iff, eq_comm (a := pod)]
    exact display_eq_display_pod_iff
  · intro policy request expected actual mismatch
    obtain ⟨rfl, rfl, other⟩ := ImagePolicy.kinds_of_patchFor mismatch
    exact ⟨fun same => other (display_eq_display_pod_iff.mp same.symm),
      policy.denies_of_refused (.kind other)⟩

/-- A slash in a version shows as one behind a group. -/
example : let a : GroupVersionKind := ⟨"", "apps/v1", "Deployment"⟩
    let b : GroupVersionKind := ⟨"apps", "v1", "Deployment"⟩
    ¬ a.Plain ∧ a.display = b.display ∧ a.agrees b = false := by decide

theorem display_unambiguous_separators :
    let a : GroupVersionKind := ⟨"apps", "v1", "Pod, Kind=/"⟩
    let b : GroupVersionKind := ⟨"", "v1", "Pod, Kind=/"⟩
    let request : AdmissionRequest :=
      ⟨"u", ⟨"", "v1, Kind=Pod", "Pod"⟩, ⟨"", "v1", "pods"⟩, none, none, none, none, none, "CREATE",
        [], none, none, none⟩
    (a.Plain ∧ b.Plain ∧ a.display ≠ b.display) ∧
      (ImagePolicy.standard.handle request).value.Denies "u"
        "expected v1, Kind=Pod but request declares v1, Kind=Pod, Kind=Pod" := by
  intro a b request
  obtain ⟨apart, -, mismatch⟩ := display_unambiguous
  have plain : a.Plain ∧ b.Plain := by decide
  have differs := mt (apart a b plain.1 plain.2).mp (by decide)
  exact ⟨⟨plain.1, plain.2, differs⟩, (mismatch .standard request _ _ rfl).2⟩

end GroupVersionKind

end PodWebhook
