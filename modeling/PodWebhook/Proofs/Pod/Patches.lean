import PodWebhook.Admission.Mutator
import PodWebhook.Proofs.Json.Difference
import PodWebhook.Proofs.Json.Patching
import PodWebhook.Proofs.Pod.Rewriting

/-!
The patch of a Pod. It is the difference between the Pod that was read and the Pod that the policy
asks for, and has one operation for each container whose image changes. On the JSON that the Pod was
read from, in which there may be more than the Pod knows of, it does what the policy wants of that
JSON.
-/

namespace PodWebhook

open Schema

namespace Container

/-- The other fields are in order, and the image is not among them. -/
structure Tidy (c : Container) : Prop where
  others : c.others.Tidy
  image : Keyed.get? "image" c.others = none

theorem tidy_ofFields {data : Fields} (h : data.Tidy) : (ofFields data).Tidy where
  others := (h.erase "name").erase "image"
  image := by
    rw [ofFields, Keyed.get?_erase (h.1.erase "name"), if_pos rfl]

theorem tidy_ofDatum {datum : Datum} (h : datum.Tidy) : (ofDatum datum).Tidy := by
  cases datum with
  | record data => exact tidy_ofFields (Datum.tidy_record_iff.mp h)
  | bool | int | text | instant | json | list | map => exact tidy_ofFields ⟨.nil, by simp⟩

def named (c : Container) : Fields := Keyed.set "name" (.text c.name) c.others

theorem Tidy.named {c : Container} (h : c.Tidy) : c.named.Tidy := h.others.set "name" trivial

theorem tidy_toDatum {c : Container} (h : c.Tidy) : c.toDatum.Tidy := by
  rw [toDatum]
  split
  · exact Datum.tidy_record_iff.mpr (h.named.set "image" trivial)
  · exact Datum.tidy_record_iff.mpr h.named

theorem toJson_of_some {c : Container} {image : String} (h : c.image = some image) :
    c.toDatum.toJson =
      .object (Keyed.set "image" (.text image) (Keyed.mapValues Datum.toJson c.named)) := by
  rw [toDatum, h]
  simp only
  rw [Datum.toJson_record, Keyed.mapValues_set]
  rfl

theorem toJson_of_none {c : Container} (h : c.image = none) :
    c.toDatum.toJson = .object (Keyed.mapValues Datum.toJson c.named) := by
  rw [toDatum, h]
  exact Datum.toJson_record _

end Container

namespace ImagePolicy

/-- The operation that gives a container its image: it takes the place of another one, or is new. -/
def imageOperation (policy : ImagePolicy) (path : Json.Pointer) (c : Container) : Json.Operation :=
  match c.image with
  | some _ => .replace path (.text policy.image)
  | none => .add path (.text policy.image)

theorem diffAt_enforce (policy : ImagePolicy) {c : Container} (tidy : c.Tidy)
    (path : Json.Pointer) :
    Json.diffAt path c.toDatum.toJson (policy.enforce c).toDatum.toJson =
      if policy.changes c then [policy.imageOperation (path.push "image") c] else [] := by
  rw [enforce]
  split
  · next changed =>
    have ascending := tidy.named.1.mapValues Datum.toJson
    have after : ({ c with image := some policy.image } : Container).toDatum.toJson =
        .object (Keyed.set "image" (.text policy.image) (Keyed.mapValues Datum.toJson c.named)) :=
      Container.toJson_of_some rfl
    have ordered := Container.tidy_toDatum tidy
    rw [Datum.Tidy] at ordered
    rw [after, imageOperation]
    cases image : c.image with
    | some old =>
        rw [Container.toJson_of_some image] at ordered ⊢
        rw [Json.diffAt_set_set path ascending ordered]
        have different : old ≠ policy.image := by
          rintro rfl
          simp [changes, image] at changed
        simp [Json.diffAt, different]
    | none =>
        rw [Container.toJson_of_none image] at ordered ⊢
        refine Json.diffAt_insert path ordered ?_ _
        rw [Keyed.get?_mapValues, Container.named, Keyed.get?_set_of_ne (by decide), tidy.image]
        rfl
  · exact Json.diffAt_self path _ (Container.tidy_toDatum tidy)

end ImagePolicy

namespace PodSpec

structure Tidy (spec : PodSpec) : Prop where
  others : spec.others.Tidy
  containers : ∀ c ∈ spec.containers, c.Tidy

theorem tidy_ofFields {data : Fields} (h : data.Tidy) : (ofFields data).Tidy where
  others := h.erase "containers"
  containers := by
    rw [ofFields, List.forall_mem_map]
    intro datum hd
    refine Container.tidy_ofDatum ?_
    rw [Fields.list] at hd
    cases found : Fields.part? "containers" data Datum.items? with
    | none =>
        rw [found] at hd
        cases hd
    | some items =>
        rw [found] at hd
        exact Datum.tidy_list_iff.mp (h.get? (Fields.items?_eq_some_iff.mp found)) datum hd

theorem tidy_toDatum {spec : PodSpec} (h : spec.Tidy) : spec.toDatum.Tidy := by
  refine Datum.tidy_record_iff.mpr (h.others.set "containers" ?_)
  rw [Datum.tidy_list_iff, List.forall_mem_map]
  exact fun c hc => Container.tidy_toDatum (h.containers c hc)

theorem toJson_toDatum (spec : PodSpec) :
    spec.toDatum.toJson = .object (Keyed.set "containers"
      (.array (spec.containers.map fun c => c.toDatum.toJson))
      (Keyed.mapValues Datum.toJson spec.others)) := by
  rw [toDatum, Datum.toJson_record, Keyed.mapValues_set, Datum.toJson_list, List.map_map]
  rfl

end PodSpec

namespace Pod

structure Tidy (pod : Pod) : Prop where
  labels : ∀ labels, pod.labels = some labels → Keyed.Ascending labels
  metadata : pod.metadata.Tidy
  others : pod.others.Tidy
  spec : ∀ spec, pod.spec = some spec → spec.Tidy

theorem ascending_textsOf {entries : Fields} (h : Keyed.Ascending entries) :
    Keyed.Ascending (textsOf entries) := by
  rw [textsOf, Keyed.Ascending, List.pairwise_filterMap]
  refine h.imp fun {a b} lt x hx y hy => ?_
  split at hx
  · split at hy
    · rw [← Option.some.inj hx, ← Option.some.inj hy]
      exact lt
    · cases hy
  · cases hx

theorem tidy_ofFields {data : Fields} (h : data.Tidy) : (ofFields data).Tidy := by
  have record : ∀ key fields, Fields.record? key data = some fields → fields.Tidy := by
    intro key fields found
    exact Datum.tidy_record_iff.mp (h.get? (Fields.record?_eq_some_iff.mp found))
  have metadata : Fields.Tidy ((Fields.record? "metadata" data).getD []) := by
    cases found : Fields.record? "metadata" data with
    | none => exact ⟨.nil, by simp⟩
    | some fields => exact record "metadata" fields found
  refine ⟨fun labels found => ?_, metadata.erase "labels", (h.erase "metadata").erase "spec",
    fun spec found => ?_⟩
  · simp only [ofFields, labelsOf] at found
    split at found
    · next entries given =>
      obtain rfl := Option.some.inj found
      exact ascending_textsOf (Datum.tidy_map_iff.mp (metadata.get? given)).1
    · cases found
  · obtain ⟨fields, given, rfl⟩ := Option.map_eq_some_iff.mp found
    exact PodSpec.tidy_ofFields (record "spec" fields given)

theorem tidy_metadataDatum {pod : Pod} (h : pod.Tidy) : pod.metadataDatum.Tidy := by
  rw [metadataDatum]
  split
  · next labels found =>
    refine Datum.tidy_record_iff.mpr (h.metadata.set "labels" (Datum.tidy_map_iff.mpr ⟨?_, ?_⟩))
    · exact (h.labels labels found).mapValues Datum.text
    · rw [List.forall_mem_map]
      exact fun l _ => trivial
  · exact Datum.tidy_record_iff.mpr h.metadata

def unspecified (pod : Pod) : Fields := Keyed.set "metadata" pod.metadataDatum pod.others

theorem Tidy.unspecified {pod : Pod} (h : pod.Tidy) : pod.unspecified.Tidy :=
  h.others.set "metadata" (tidy_metadataDatum h)

theorem ordered_toJson {pod : Pod} (h : pod.Tidy) : pod.toJson.Ordered := by
  rw [toJson, toDatum]
  split
  · next spec found =>
    exact Datum.tidy_record_iff.mpr
      (h.unspecified.set "spec" (PodSpec.tidy_toDatum (h.spec spec found)))
  · exact Datum.tidy_record_iff.mpr h.unspecified

theorem toJson_of_spec {pod : Pod} {spec : PodSpec} (h : pod.spec = some spec) :
    pod.toJson = .object (Keyed.set "spec" spec.toDatum.toJson
      (Keyed.mapValues Datum.toJson pod.unspecified)) := by
  rw [toJson, toDatum, h]
  simp only
  rw [Datum.toJson_record, Keyed.mapValues_set]
  rfl

theorem tidy_of_ofJson {object : Json} {pod : Pod} (ordered : object.Ordered)
    (h : ofJson object = .ok pod) : pod.Tidy := by
  obtain ⟨members, data, rfl, read⟩ := read_of_ofJson ordered h
  have tidy := Shape.orderly_read _ ascending_pod _ _ (Shape.readJson_eq_ok_iff.mp read.read)
  rw [read.pod]
  exact tidy_ofFields (Datum.tidy_record_iff.mp tidy)

end Pod

namespace ImagePolicy

def operations (policy : ImagePolicy) (index : Nat) (containers : List Container) : Json.Patch :=
  (containers.zipIdx index).flatMap fun p =>
    if policy.changes p.1 then [policy.imageOperation (Pod.imagePath p.2) p.1] else []

theorem operations_cons (policy : ImagePolicy) (index : Nat) (c : Container)
    (containers : List Container) :
    policy.operations index (c :: containers) =
      (if policy.changes c then [policy.imageOperation (Pod.imagePath index) c] else []) ++
        policy.operations (index + 1) containers := by
  rw [operations, List.zipIdx_cons, List.flatMap_cons]
  rfl

theorem operations_eq_nil_iff {policy : ImagePolicy} {index : Nat} {containers : List Container} :
    policy.operations index containers = [] ↔ ∀ c ∈ containers, ¬ policy.changes c = true := by
  induction containers generalizing index with
  | nil => simp [operations]
  | cons c containers ih =>
      rw [operations_cons, List.append_eq_nil_iff, List.forall_mem_cons, ih]
      simp

theorem operations_congr (policy : ImagePolicy) {containers others : List Container}
    (h : containers.map (fun c => (c.name, c.image)) = others.map fun c => (c.name, c.image))
    (index : Nat) : policy.operations index containers = policy.operations index others := by
  induction containers generalizing others index with
  | nil =>
      cases others with
      | nil => rfl
      | cons d others => simp at h
  | cons c containers ih =>
      cases others with
      | nil => simp at h
      | cons d others =>
          simp only [List.map_cons, List.cons.injEq, Prod.mk.injEq] at h
          obtain ⟨⟨name, image⟩, rest⟩ := h
          have changes : policy.changes c = policy.changes d := by
            simp only [ImagePolicy.changes, name, image]
          have operation : policy.imageOperation (Pod.imagePath index) c =
              policy.imageOperation (Pod.imagePath index) d := by
            simp only [imageOperation, image]
          rw [operations_cons, operations_cons, changes, operation, ih rest]

/-- A spec differs by the operations for its containers. -/
theorem diffAt_spec (policy : ImagePolicy) {spec : PodSpec} (tidy : spec.Tidy) :
    Json.diffAt ⟨["spec"]⟩ spec.toDatum.toJson
        ({ spec with containers := spec.containers.map policy.enforce } : PodSpec).toDatum.toJson =
      policy.operations 0 spec.containers := by
  have ascending := tidy.others.1.mapValues Datum.toJson
  have ordered : spec.toDatum.toJson.Ordered := PodSpec.tidy_toDatum tidy
  have after : ({ spec with containers := spec.containers.map policy.enforce } :
      PodSpec).toDatum.toJson = .object (Keyed.set "containers"
        (.array (spec.containers.map fun c => (policy.enforce c).toDatum.toJson))
        (Keyed.mapValues Datum.toJson spec.others)) := by
    rw [PodSpec.toJson_toDatum, List.map_map]
    rfl
  rw [after]
  rw [PodSpec.toJson_toDatum] at ordered ⊢
  rw [Json.diffAt_set_set _ ascending ordered, Json.diffAt,
    Json.diffItems_map _ _ _ (fun i c =>
      if policy.changes c then [policy.imageOperation (Pod.imagePath i) c] else [])]
  · rfl
  · exact fun i c hc => policy.diffAt_enforce (tidy.containers c hc) _

theorem diff_apply (policy : ImagePolicy) {pod : Pod} (tidy : pod.Tidy) :
    Json.diff pod.toJson (policy.apply pod).toJson =
      if policy.selects pod then policy.operations 0 pod.containers else [] := by
  have ordered := Pod.ordered_toJson tidy
  rw [apply]
  split
  · cases found : pod.spec with
    | none =>
        have same : ({ pod with spec := none } : Pod) = pod := by
          cases pod
          simp_all
        simp only [Option.map_none, same, Pod.containers, found]
        exact Json.diffAt_self ⟨[]⟩ _ ordered
    | some spec =>
        have after : ({ pod with spec := some { spec with
            containers := spec.containers.map policy.enforce } } : Pod).toJson =
            .object (Keyed.set "spec"
              ({ spec with containers := spec.containers.map policy.enforce } :
                PodSpec).toDatum.toJson (Keyed.mapValues Datum.toJson pod.unspecified)) :=
          Pod.toJson_of_spec rfl
        have ascending := tidy.unspecified.1.mapValues Datum.toJson
        simp only [Option.map_some, Pod.containers, found]
        rw [after, Json.diff]
        rw [Pod.toJson_of_spec found] at ordered ⊢
        rw [Json.diffAt_set_set ⟨[]⟩ ascending ordered]
        exact policy.diffAt_spec (tidy.spec spec found)
  · exact Json.diffAt_self ⟨[]⟩ _ ordered

theorem changes_iff {policy : ImagePolicy} {item : Json} {parts : Keyed Json} {data : Fields}
    (read : Container.Read item parts data) :
    policy.changes (Container.ofFields data) = true ↔
      policy.Names item ∧ item.get? "image" ≠ some (.text policy.image) := by
  rw [changes, Bool.and_eq_true, beq_iff_eq, bne_iff_ne, read.name, Names]
  refine and_congr_right fun _ => not_congr ?_
  rw [read.object, Json.get?]
  rcases read.image with ⟨missing | null, none⟩ | ⟨old, present, given⟩
  · simp [missing, none]
  · simp [null, none]
  · simp [present, given]

theorem withImage_of_not_changes {policy : ImagePolicy} {object item : Json} {parts : Keyed Json}
    {data : Fields} (selected : policy.Selects object) (read : Container.Read item parts data)
    (h : ¬ policy.changes (Container.ofFields data) = true) :
    Container.withImage (policy.imageFor object item) item = item := by
  rw [imageFor_of_selects selected]
  by_cases named : policy.Names item
  · have already : item.get? "image" = some (.text policy.image) := by
      by_contra other
      exact h ((changes_iff read).mpr ⟨named, other⟩)
    rw [read.object] at already ⊢
    rw [if_pos (read.object ▸ named), Container.withImage, Json.setMember,
      Keyed.set_of_get? read.ascending already]
  · rw [if_neg named, Container.withImage]

def around (members spec : Keyed Json) (items : List Json) : Json :=
  .object (Keyed.set "spec" (.object (Keyed.set "containers" (.array items) spec)) members)

section Around

variable {members spec : Keyed Json} (hm : Keyed.Ascending members) (hs : Keyed.Ascending spec)

include hm hs in
theorem modifyAt?_around {change : Json → Option Json} {items : List Json} {index : Nat}
    {item new : Json} (found : items[index]? = some item) (changed : change item = some new) :
    (around members spec items).modifyAt? change ["spec", "containers", Nat.repr index] =
      some (around members spec (items.set index new)) := by
  have list : (Json.array items).modifyAt? change [Nat.repr index] =
      some (.array (items.set index new)) := Json.modifyAt?_item found changed
  have inSpec := Json.modifyAt?_member (Keyed.get?_set_self "containers" (.array items) spec) list
  rw [Keyed.set_set hs] at inSpec
  have inPod := Json.modifyAt?_member (Keyed.get?_set_self "spec" _ members) inSpec
  rwa [Keyed.set_set hm] at inPod

include hm hs in
/-- On the JSON of a Pod the operation puts the image in, whatever else the container holds. -/
theorem run?_imageOperation (policy : ImagePolicy) {items : List Json} {index : Nat} {item : Json}
    {parts : Keyed Json} {data : Fields} (read : Container.Read item parts data)
    (found : items[index]? = some item) :
    (policy.imageOperation (Pod.imagePath index) (Container.ofFields data)).run?
        (around members spec items) =
      some (around members spec
        (items.set index (item.setMember "image" (.text policy.image)))) := by
  obtain ⟨rfl, _, _, _, image⟩ := read
  rw [imageOperation]
  rcases image with ⟨absent, none⟩ | ⟨old, present, given⟩
  · rw [none]
    exact modifyAt?_around hm hs found rfl
  · rw [given]
    have steps : (Pod.imagePath index).steps =
        ["spec", "containers", Nat.repr index] ++ ["image"] := rfl
    simp only
    rw [Json.Operation.run?, steps, Json.modifyAt?_append]
    exact modifyAt?_around hm hs found (Json.modifyAt?_member present rfl)

include hm hs in
theorem run?_container {policy : ImagePolicy} {object : Json} (selected : policy.Selects object)
    {items : List Json} {index : Nat} {item : Json} {parts : Keyed Json} {data : Fields}
    (read : Container.Read item parts data) (found : items[index]? = some item) :
    Json.Patch.run? (around members spec items)
        (if policy.changes (Container.ofFields data) then
          [policy.imageOperation (Pod.imagePath index) (Container.ofFields data)] else []) =
      some (around members spec
        (items.set index (Container.withImage (policy.imageFor object item) item))) := by
  split
  · next changed =>
    have named := ((changes_iff read).mp changed).1
    have put : Container.withImage (policy.imageFor object item) item =
        item.setMember "image" (.text policy.image) := by
      rw [imageFor_of_selects selected, if_pos named, Container.withImage]
    rw [Json.Patch.run?, List.foldlM_cons, run?_imageOperation hm hs policy read found, put]
    rfl
  · next unchanged =>
    obtain ⟨inside, same⟩ := List.getElem?_eq_some_iff.mp found
    rw [withImage_of_not_changes selected read unchanged, ← same, List.set_getElem_self]
    rfl

include hm hs in
theorem run?_operations {policy : ImagePolicy} {object : Json} (selected : policy.Selects object)
    {items : List Json} {containers : List Container}
    (h : List.Forall₂ (fun item c => ∃ parts data, Container.Read item parts data ∧
      c = Container.ofFields data) items containers) (done : List Json) :
    Json.Patch.run? (around members spec (done ++ items))
        (policy.operations done.length containers) =
      some (around members spec
        (done ++
          items.map fun item => Container.withImage (policy.imageFor object item) item)) := by
  induction h generalizing done with
  | nil => rfl
  | @cons item c items containers head tail ih =>
      obtain ⟨parts, data, read, rfl⟩ := head
      have rest := ih (done ++ [Container.withImage (policy.imageFor object item) item])
      rw [List.length_append, List.append_assoc, List.append_assoc] at rest
      have found : (done ++ item :: items)[done.length]? = some item := by simp
      have first := run?_container hm hs selected read found
      rw [Json.Patch.run?] at first
      rw [operations_cons, Json.Patch.run?, List.foldlM_append, first]
      simp only [List.set_append_right _ _ (Nat.le_refl _), Nat.sub_self, List.set_cons_zero]
      exact rest

end Around

theorem forall₂_read {items : List Json} {data : List Datum}
    (ordered : ∀ item ∈ items, item.Ordered)
    (h : List.Forall₂ (fun v d => Kubernetes.container.readJson v = .ok d) items data) :
    List.Forall₂ (fun item c => ∃ parts fields, Container.Read item parts fields ∧
      c = Container.ofFields fields) items (data.map Container.ofDatum) := by
  induction h with
  | nil => exact .nil
  | @cons item datum items data head tail ih =>
      obtain ⟨parts, fields, rfl, read⟩ :=
        Container.read_of_readJson (ordered item List.mem_cons_self) head
      have rest := ih fun i hi => ordered i (List.mem_cons_of_mem item hi)
      exact .cons ⟨parts, fields, read, rfl⟩ rest

theorem forall₂_containers {object : Json} {pod : Pod} (ordered : object.Ordered)
    (h : Pod.ofJson object = .ok pod) :
    List.Forall₂ (fun item c => ∃ parts fields, Container.Read item parts fields ∧
      c = Container.ofFields fields) (Pod.containersIn object) pod.containers := by
  obtain ⟨members, data, rfl, read⟩ := Pod.read_of_ofJson ordered h
  rcases read.layout ordered with ⟨spec, items, specData, itemData, layout⟩ | ⟨none, bare⟩
  · have orderedItems := (ordered.get? layout.foundSpec).get? layout.foundItems
    rw [Json.Ordered, Json.orderedItems_iff] at orderedItems
    rw [layout.containersIn, read.pod, layout.containers]
    exact forall₂_read orderedItems layout.readItems
  · rw [none, bare]
    exact .nil

/-- The patch for a Pod turns the JSON that the Pod was read from into what the policy wants. -/
theorem run?_diff (policy : ImagePolicy) {object : Json} {pod : Pod} (ordered : object.Ordered)
    (h : Pod.ofJson object = .ok pod) :
    Json.Patch.run? object (Json.diff pod.toJson (policy.apply pod).toJson) =
      some (policy.rewrite object) := by
  rw [policy.diff_apply (Pod.tidy_of_ofJson ordered h)]
  by_cases selected : policy.Selects object
  · rw [if_pos ((selects_iff ordered h).mpr selected)]
    obtain ⟨members, data, rfl, read⟩ := Pod.read_of_ofJson ordered h
    have containers := forall₂_containers ordered h
    rcases read.layout ordered with ⟨spec, items, specData, itemData, layout⟩ | ⟨none, bare⟩
    · have whole : Json.object members = around members spec items := by
        rw [around, Keyed.set_of_get? layout.ascending layout.foundItems,
          Keyed.set_of_get? read.ascending layout.foundSpec]
      rw [layout.containersIn] at containers
      have run := run?_operations read.ascending layout.ascending selected containers []
      rw [rewrite, layout.withImages]
      rw [whole] at run ⊢
      exact run
    · have unchanged : policy.rewrite (.object members) = .object members :=
        Pod.withImages_of_none ordered (by simp [none])
      rw [bare, unchanged]
      rfl
  · have unselected : ¬ policy.selects pod = true := fun selects =>
      selected ((selects_iff ordered h).mp selects)
    rw [if_neg unselected, rewrite_of_not_selects ordered selected]
    rfl

theorem portable_diff (policy : ImagePolicy) {pod : Pod} (tidy : pod.Tidy) :
    ∀ op ∈ Json.diff pod.toJson (policy.apply pod).toJson, op.Portable := by
  have shallow : (Json.text policy.image).depth + 2 ≤ Json.Document.maxDepth := by
    simp [Json.depth, Json.Document.maxDepth]
  rw [policy.diff_apply tidy]
  intro op hop
  split at hop
  · obtain ⟨p, _, hp⟩ := List.mem_flatMap.mp hop
    split at hp
    · rw [List.mem_singleton.mp hp, imageOperation]
      split <;> exact Json.Operation.portable_of_value rfl trivial trivial shallow
    · cases hp
  · cases hop

end ImagePolicy

end PodWebhook
