import PodWebhook.Proofs.Admission.Patching

/-!
Patches on responses. Whatever a response had before, after a patch has been attached to it there is
this patch and no other, and the type of the patch stands beside it. The patch goes through JSON,
text and base64, and comes back whole.
-/

namespace PodWebhook

namespace AdmissionResponse

def withPatches (response : AdmissionResponse) (patches : List Json.Patch) : AdmissionResponse :=
  patches.foldl withPatch response

/-- The type of a patch is named exactly when the patch is there. -/
def Consistent (response : AdmissionResponse) : Prop :=
  response.patch.isSome = response.patchType.isSome

theorem withPatch_of_nonempty (response : AdmissionResponse) {patch : Json.Patch}
    (h : patch ≠ []) : response.withPatch patch =
      { response with
        patchType := some .jsonPatch
        patch := some (Base64.encode (Bytes.utf8 patch.toJson.compact)) } := by
  rw [withPatch_eq, if_neg (by simpa using h)]

theorem consistent_withPatch (response : AdmissionResponse) (patch : Json.Patch) :
    (response.withPatch patch).Consistent := by
  rw [withPatch_eq]
  split <;> rfl

theorem withPatch_withPatch (response : AdmissionResponse) (first second : Json.Patch) :
    (response.withPatch first).withPatch second = response.withPatch second := by
  simp only [withPatch_eq]
  split <;> split <;> rfl

theorem withPatches_snoc (response : AdmissionResponse) (patches : List Json.Patch)
    (last : Json.Patch) : response.withPatches (patches ++ [last]) = response.withPatch last := by
  induction patches generalizing response with
  | nil => rfl
  | cons patch patches ih =>
      have rest := ih (response.withPatch patch)
      rw [withPatch_withPatch] at rest
      exact rest

theorem consistent_withPatches (response : AdmissionResponse) {patches : List Json.Patch}
    (h : patches ≠ []) : (response.withPatches patches).Consistent := by
  rw [← List.dropLast_append_getLast h, withPatches_snoc]
  exact response.consistent_withPatch _

/-- A patch is on its way in a text: the text is base64 of another text, and that is the JSON of the
patch. -/
structure Travels (patch : Json.Patch) (encoded : String) : Prop where
  padded : Base64.Padded encoded.toList
  decodes : ∃ bytes value, Base64.decode? encoded = some bytes ∧ Json.parse bytes = .ok value ∧
    Json.Patch.ofJson? value = some patch

theorem travels_encode {patch : Json.Patch} (portable : ∀ op ∈ patch, op.Portable) :
    Travels patch (Base64.encode (Bytes.utf8 patch.toJson.compact)) where
  padded := Base64.padded_encode _
  decodes := ⟨_, _, Base64.decode?_encode _, Json.Patch.parse_compact_toJson portable,
    Json.Patch.ofJson?_sorted portable⟩

/-- A patch can always be attached. It takes the place of any other one and leaves the rest of a
response as it was. -/
theorem withPatch_replaces (response : AdmissionResponse) {patch : Json.Patch}
    (portable : ∀ op ∈ patch, op.Portable) :
    response.attach patch = .ok (response.withPatch patch) ∧
    ((response.withPatch patch).uid = response.uid ∧
      (response.withPatch patch).allowed = response.allowed ∧
      (response.withPatch patch).status = response.status) ∧
    (patch = [] → (response.withPatch patch).patch = none ∧
      (response.withPatch patch).patchType = none) ∧
    (patch ≠ [] → (response.withPatch patch).patchType = some .jsonPatch ∧
      ∃ encoded, (response.withPatch patch).patch = some encoded ∧ Travels patch encoded) ∧
    (∀ before, response.withPatches (before ++ [patch]) = response.withPatch patch) ∧
    ∀ patches, patches ≠ [] → (response.withPatches patches).Consistent := by
  refine ⟨response.attach_eq patch, ?_, ?_, ?_, ?_, ?_⟩
  · rw [withPatch_eq]
    split <;> exact ⟨rfl, rfl, rfl⟩
  · rintro rfl
    exact ⟨rfl, rfl⟩
  · intro nonempty
    rw [withPatch_of_nonempty response nonempty]
    exact ⟨rfl, _, rfl, travels_encode portable⟩
  · exact fun before => response.withPatches_snoc before patch
  · exact fun patches => response.consistent_withPatches

theorem withPatch_replaces_six_kinds :
    let response : AdmissionResponse := ⟨"u", false, some .jsonPatch, none, some ⟨none, some 400⟩⟩
    let patch : Json.Patch :=
      [.test ⟨["a/b", "c~d"]⟩ (.number (.int (-9223372036854775808))), .remove ⟨["~1", ""]⟩,
        .add ⟨["é", "-"]⟩ (.object [("a\"b", .array [.null, .text "\n😀"]), ("ü", .object [])]),
        .replace ⟨[]⟩ (.number (.int 18446744073709551615)), .move ⟨["/"]⟩ ⟨["~"]⟩,
        .copy ⟨["0", "1"]⟩ ⟨["2"]⟩]
    response.attach patch = .ok (response.withPatch patch) ∧
      response.withPatches [[.remove ⟨["x"]⟩], [], patch] = response.withPatch patch ∧
      ∃ encoded, (response.withPatch patch).patch = some encoded ∧ Travels patch encoded := by
  intro response patch
  have portable : ∀ op ∈ patch, op.Portable := by
    simp only [patch, List.forall_mem_cons]
    refine ⟨?test, ?remove, ?add, ?replace, ?move, ?copy, by simp⟩
    case test => exact Json.Operation.portable_of_value rfl rfl trivial (by decide)
    case add =>
      exact Json.Operation.portable_of_value rfl ⟨⟨trivial, trivial, trivial⟩, trivial, trivial⟩
        (by decide +kernel) (by decide)
    case replace => exact Json.Operation.portable_of_value rfl rfl trivial (by decide)
    all_goals exact Json.Operation.portable_of_valueless rfl
  obtain ⟨attached, -, -, carried, last, -⟩ := withPatch_replaces response portable
  exact ⟨attached, last [[.remove ⟨["x"]⟩], []], (carried (by simp [patch])).2⟩

end AdmissionResponse

end PodWebhook
