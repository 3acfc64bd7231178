import PodWebhook.Proofs.Admission.Patching

/-!
The patch of a request, operation by operation. Whatever else a Pod holds is written the same before
and after, so the patch has nothing but the images: one operation for each container of the name
that has another image or none, in the order of the containers.
-/

namespace PodWebhook

namespace Json

namespace Pointer

theorem escapeStep_of_plain {cs : List Char} (h : ∀ c ∈ cs, c ≠ '~' ∧ c ≠ '/') :
    escapeStep cs = cs := by
  induction cs with
  | nil => rfl
  | cons c cs ih =>
      obtain ⟨⟨tilde, slash⟩, rest⟩ := List.forall_mem_cons.mp h
      simp [escapeStep, ih rest]

theorem escapeStep_repr (n : Nat) : escapeStep (Nat.repr n).toList = (Nat.repr n).toList := by
  refine escapeStep_of_plain fun c member => ?_
  rw [Nat.toList_repr] at member
  have digit := Nat.isDigit_of_mem_toDigits (by decide) (by decide) member
  constructor <;> rintro rfl <;> exact absurd digit (by decide)

end Pointer

theorem child?_of_get? {value part : Json} {key : String} (h : value.get? key = some part) :
    value.child? key = some part := by
  cases value with
  | object members => exact h
  | null | bool | number | text | array => cases h

end Json

namespace Pod

theorem toText_imagePath (index : Nat) :
    (imagePath index).toText = "/spec/containers/" ++ Nat.repr index ++ "/image" := by
  refine String.toList_inj.mp ?_
  have spec : Json.Pointer.escapeStep "spec".toList = "spec".toList := rfl
  have containers : Json.Pointer.escapeStep "containers".toList = "containers".toList := rfl
  have image : Json.Pointer.escapeStep "image".toList = "image".toList := rfl
  simp only [Json.Pointer.toList_toText, imagePath, List.flatMap_cons, List.flatMap_nil,
    String.toList_append, Json.Pointer.escapeStep_repr, spec, containers, image]
  simp

theorem follow?_imagePath {object item : Json} {index : Nat}
    (found : (containersIn object)[index]? = some item) :
    object.follow? (imagePath index).steps = item.child? "image" := by
  rw [containersIn] at found
  split at found
  · next items list =>
    obtain ⟨spec, foundSpec, foundItems⟩ := Option.bind_eq_some_iff.mp list
    have foundItem : (Json.array items).child? (Nat.repr index) = some item := by
      rw [Json.child?, Json.Pointer.index?_repr, Option.bind_some, found]
    simp [imagePath, Json.follow?, Json.child?_of_get? foundSpec, Json.child?_of_get? foundItems,
      foundItem]
  · cases found

end Pod

namespace ImagePolicy

theorem changes_eq_true_iff {policy : ImagePolicy} {c : Container} :
    policy.changes c = true ↔ c.name = policy.containerName ∧ c.image ≠ some policy.image := by
  rw [changes, Bool.and_eq_true, beq_iff_eq, bne_iff_ne]

theorem operations_eq_filterMap (policy : ImagePolicy) (index : Nat) (containers : List Container) :
    policy.operations index containers = (containers.zipIdx index).filterMap fun p =>
      if p.1.name = policy.containerName ∧ p.1.image ≠ some policy.image then
        some (policy.imageOperation (Pod.imagePath p.2) p.1) else none := by
  induction containers generalizing index with
  | nil => rfl
  | cons c containers ih =>
      rw [operations_cons, ih, List.zipIdx_cons, List.filterMap_cons]
      by_cases changed : policy.changes c = true
      · rw [if_pos changed, if_pos (changes_eq_true_iff.mp changed)]
        rfl
      · rw [if_neg changed, if_neg (mt changes_eq_true_iff.mpr changed)]
        rfl

theorem mem_operations_iff {policy : ImagePolicy} {containers : List Container}
    {op : Json.Operation} :
    op ∈ policy.operations 0 containers ↔
      ∃ index c, containers[index]? = some c ∧ policy.changes c = true ∧
        op = policy.imageOperation (Pod.imagePath index) c := by
  simp only [operations, List.mem_flatMap, Prod.exists, List.mk_mem_zipIdx_iff_getElem?,
    List.mem_ite_nil_right, List.mem_singleton]
  exact exists_comm

theorem toJson_imageOperation (policy : ImagePolicy) (index : Nat) (c : Container) :
    (policy.imageOperation (Pod.imagePath index) c).toJson =
      .object [("op", .text (if c.image.isSome then "replace" else "add")),
        ("path", .text ("/spec/containers/" ++ Nat.repr index ++ "/image")),
        ("value", .text policy.image)] := by
  rw [← Pod.toText_imagePath, imageOperation]
  cases c.image <;> rfl

theorem follow?_ne_of_changes {policy : ImagePolicy} {object : Json} {pod : Pod}
    (ordered : object.Ordered) (h : Pod.ofJson object = .ok pod) {index : Nat} {c : Container}
    (found : pod.containers[index]? = some c) (changed : policy.changes c = true) :
    object.follow? (Pod.imagePath index).steps ≠ some (.text policy.image) := by
  obtain ⟨item, inJson, parts, data, read, rfl⟩ :
      ∃ item, (Pod.containersIn object)[index]? = some item ∧
        ∃ parts data, Container.Read item parts data ∧ c = Container.ofFields data := by
    have each := List.forall₂_iff_get.mp (forall₂_containers ordered h)
    obtain ⟨inside, rfl⟩ := List.getElem?_eq_some_iff.mp found
    have inside' := each.1 ▸ inside
    exact ⟨_, List.getElem?_eq_getElem inside', each.2 index inside' inside⟩
  have other := ((changes_iff read).mp changed).2
  rw [Pod.follow?_imagePath inJson]
  rw [read.object] at other ⊢
  exact other

/-- The patch for a Pod is this list of operations, each of which is written like this and puts the
image where it is not yet. -/
theorem patchFor_exact (policy : ImagePolicy) {request : AdmissionRequest} {object : Json}
    {pod : Pod} (kind : request.kind = GroupVersionKind.pod)
    (carries : request.object = some object) (ordered : object.Ordered)
    (read : Pod.ofJson object = .ok pod) :
    ∃ patch, (policy.patchFor request).value = .ok patch ∧
      (policy.selects pod = false ∨ pod.spec = none → patch = []) ∧
      (∀ spec, policy.selects pod = true → pod.spec = some spec →
        patch = spec.containers.zipIdx.filterMap fun p =>
          if p.1.name = policy.containerName ∧ p.1.image ≠ some policy.image then
            some (policy.imageOperation (Pod.imagePath p.2) p.1) else none) ∧
      ∀ op ∈ patch, ∃ index c, pod.containers[index]? = some c ∧
        c.name = policy.containerName ∧ c.image ≠ some policy.image ∧
        op.toJson = .object [("op", .text (if c.image.isSome then "replace" else "add")),
          ("path", .text ("/spec/containers/" ++ Nat.repr index ++ "/image")),
          ("value", .text policy.image)] ∧
        object.follow? (Pod.imagePath index).steps ≠ some (.text policy.image) := by
  have tidy := Pod.tidy_of_ofJson ordered read
  refine ⟨_, policy.patchFor_of_pod kind carries read, ?_, ?_, ?_⟩
  · rintro (unselected | bare)
    · rw [policy.diff_apply tidy, unselected]
      rfl
    · have none : pod.containers = [] := by rw [Pod.containers, bare]
      rw [apply_of_containers_nil none]
      exact Json.diffAt_self ⟨[]⟩ _ (Pod.ordered_toJson tidy)
  · intro spec selected found
    rw [policy.diff_apply tidy, if_pos selected, Pod.containers, found]
    exact policy.operations_eq_filterMap 0 spec.containers
  · intro op member
    rw [policy.diff_apply tidy, List.mem_ite_nil_right] at member
    obtain ⟨index, c, found, changed, rfl⟩ := mem_operations_iff.mp member.2
    obtain ⟨named, other⟩ := changes_eq_true_iff.mp changed
    exact ⟨index, c, found, named, other, policy.toJson_imageOperation index c,
      follow?_ne_of_changes ordered read found changed⟩

theorem patchFor_eleven_containers :
    let policy : ImagePolicy := ⟨"app", "web", "main", "img:2"⟩
    let object : Json :=
      .object [("metadata", .object [("labels", .object [("app", .text "web")])]),
        ("spec", .object [("containers", .array
          ([.object [("name", .text "main")],
            .object [("image", .text "img:2"), ("name", .text "main")]] ++
          List.replicate 8 (.object [("image", .text "img:1"), ("name", .text "side")]) ++
          [.object [("image", .text "img:1"), ("name", .text "main")]]))])]
    let request : AdmissionRequest :=
      ⟨"u", .pod, ⟨"", "v1", "pods"⟩, none, none, none, none, none, "CREATE", [], some object, none,
        none⟩
    (policy.patchFor request).value = .ok
      [.add (Pod.imagePath 0) (.text "img:2"), .replace (Pod.imagePath 10) (.text "img:2")] := by
  intro policy object request
  have ordered : object.Ordered := by decide +kernel
  obtain ⟨pod, spec, read, found, selected, listed⟩ : ∃ pod spec, Pod.ofJson object = .ok pod ∧
      pod.spec = some spec ∧ policy.selects pod = true ∧
      (spec.containers.zipIdx.filterMap fun p =>
        if p.1.name = policy.containerName ∧ p.1.image ≠ some policy.image then
          some (policy.imageOperation (Pod.imagePath p.2) p.1) else none) =
        [.add (Pod.imagePath 0) (.text "img:2"), .replace (Pod.imagePath 10) (.text "img:2")] :=
    ⟨_, _, rfl, rfl, by decide +kernel, by decide +kernel⟩
  obtain ⟨patch, made, -, list, -⟩ := @patchFor_exact policy request _ pod rfl rfl ordered read
  rw [made, list spec selected found, listed]

end ImagePolicy

end PodWebhook
