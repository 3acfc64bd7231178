import PodWebhook.Proofs.Json.Patching
import PodWebhook.Proofs.Pod.Written

/-!
The image policy on Pods as they are written. The JSON of a Pod that is selected gets the image put
into the containers of the name, and nothing else happens to it. What is read from the result is the
Pod that the policy asks for.
-/

namespace PodWebhook

open Schema

namespace Container

/-- The JSON of a container with an image put in, if there is one to put in. -/
def withImage (image : Option String) (item : Json) : Json :=
  match image with
  | some image => item.setMember "image" (.text image)
  | none => item

theorem nameIn_withImage (image : Option String) (item : Json) :
    nameIn (withImage image item) = nameIn item := by
  cases image with
  | none => rfl
  | some image =>
      cases item with
      | object members =>
          simp only [nameIn, withImage, Json.setMember, Json.get?]
          rw [Keyed.get?_set_of_ne (by decide)]
      | null | bool | number | text | array => rfl

theorem ofFields_set_image {data : Fields} (h : Keyed.Ascending data) (image : String) :
    ofFields (Keyed.set "image" (.text image) data) =
      { ofFields data with image := some image } := by
  have name : Fields.text "name" (Keyed.set "image" (.text image) data) =
      Fields.text "name" data := by
    rw [Fields.text, Fields.text?, Fields.part?, Keyed.get?_set_of_ne (by decide)]
    rfl
  have image : Fields.text? "image" (Keyed.set "image" (.text image) data) = some image := by
    rw [Fields.text?, Fields.part?, Keyed.get?_set_self]
    rfl
  simp only [ofFields, name, image]
  rw [Keyed.erase_set_of_ne h (by decide), Keyed.erase_set (h.erase "name")]

theorem ordered_withImage {item : Json} (h : item.Ordered) (image : Option String) :
    (withImage image item).Ordered := by
  cases image with
  | none => exact h
  | some image => exact h.setMember "image" trivial

theorem withImage_withImage {item : Json} (h : item.Ordered) (first second : Option String) :
    withImage second (withImage first item) = withImage (second.or first) item := by
  cases second with
  | none => rfl
  | some image =>
      cases first with
      | none => rfl
      | some old =>
          cases item with
          | object members =>
              have ascending := (Json.ordered_object_iff.mp h).1
              simp only [withImage, Json.setMember, Option.some_or, Keyed.set_set ascending]
          | null | bool | number | text | array => rfl

theorem image_withImage {members : Keyed Json} (image : String) :
    (withImage (some image) (.object members)).get? "image" = some (.text image) :=
  Keyed.get?_set_self "image" (Json.text image) members

end Container

namespace Pod

def withImages (image : Json → Option String) (object : Json) : Json :=
  object.mapMember "spec"
    (Json.mapMember "containers" (Json.mapItems fun item => Container.withImage (image item) item))

def imagePath (index : Nat) : Json.Pointer :=
  ⟨["spec", "containers", Nat.repr index, "image"]⟩

theorem labelIn?_withImages (key : String) (image : Json → Option String) (object : Json) :
    labelIn? key (withImages image object) = labelIn? key object := by
  rw [labelIn?, withImages, Json.get?_mapMember_of_ne (by decide)]
  rfl

theorem containersIn_withImages (image : Json → Option String) (object : Json) :
    containersIn (withImages image object) =
      (containersIn object).map fun item => Container.withImage (image item) item := by
  rw [containersIn, withImages, Json.get?_mapMember_self, containersIn]
  cases object.get? "spec" with
  | none => rfl
  | some spec =>
      simp only [Option.map_some, Option.bind_some]
      rw [Json.get?_mapMember_self]
      cases spec.get? "containers" with
      | none => rfl
      | some list => cases list <;> rfl

theorem ordered_withImages {object : Json} (h : object.Ordered) (image : Json → Option String) :
    (withImages image object).Ordered :=
  h.mapMember "spec" fun _ _ spec => spec.mapMember "containers" fun _ _ list =>
    list.mapItems fun item hi => Container.ordered_withImage hi (image item)

theorem withImages_of_none {object : Json} (h : object.Ordered) {image : Json → Option String}
    (none : ∀ item ∈ containersIn object, image item = none) :
    withImages image object = object := by
  refine Json.mapMember_of_eq h fun spec foundSpec => ?_
  have orderedSpec := h.member foundSpec
  refine Json.mapMember_of_eq orderedSpec fun list foundList => ?_
  cases list with
  | array items =>
      have inside : containersIn object = items := by
        rw [containersIn, foundSpec, Option.bind_some, foundList]
      rw [inside] at none
      have same : ∀ item ∈ items, Container.withImage (image item) item = item :=
        fun item hi => by rw [none item hi, Container.withImage]
      rw [Json.mapItems, List.map_congr_left same, List.map_id']
  | null | bool | number | text | object => rfl

theorem withImages_withImages {object : Json} (h : object.Ordered)
    {first second : Json → Option String}
    (kept : ∀ item, second (Container.withImage (first item) item) = second item) :
    withImages second (withImages first object) =
      withImages (fun item => (second item).or (first item)) object := by
  rw [withImages, withImages, Json.mapMember_mapMember h, withImages]
  refine Json.mapMember_congr fun spec foundSpec => ?_
  have orderedSpec := h.member foundSpec
  rw [Json.mapMember_mapMember orderedSpec]
  refine Json.mapMember_congr fun list foundList => ?_
  have orderedList := orderedSpec.member foundList
  cases list with
  | array items =>
      rw [Json.Ordered, Json.orderedItems_iff] at orderedList
      rw [Json.mapItems, Json.mapItems, Json.mapItems, List.map_map]
      refine congrArg Json.array (List.map_congr_left fun item hi => ?_)
      rw [Function.comp_apply, kept, Container.withImage_withImage (orderedList item hi)]
  | null | bool | number | text | object => rfl

theorem Layout.withImages {members spec : Keyed Json} {data specData : Fields} {items : List Json}
    {itemData : List Datum} (h : Layout members data spec items specData itemData)
    (image : Json → Option String) :
    Pod.withImages image (.object members) =
      .object (Keyed.set "spec" (.object (Keyed.set "containers"
        (.array (items.map fun item => Container.withImage (image item) item)) spec)) members) := by
  rw [Pod.withImages, Json.mapMember_object h.foundSpec, Json.mapMember_object h.foundItems,
    Json.mapItems]

theorem Layout.containersIn {members spec : Keyed Json} {data specData : Fields} {items : List Json}
    {itemData : List Datum} (h : Layout members data spec items specData itemData) :
    Pod.containersIn (.object members) = items := by
  simp [Pod.containersIn, Json.get?, h.foundSpec, h.foundItems]

theorem Layout.containers {members spec : Keyed Json} {data specData : Fields} {items : List Json}
    {itemData : List Datum} (h : Layout members data spec items specData itemData) :
    (ofFields data).containers = itemData.map Container.ofDatum := by
  simp [Pod.containers, ofFields, Fields.record?, h.givenSpec, PodSpec.ofFields, Fields.list,
    h.givenItems]

theorem ofFields_set_containers {data : Fields} (h : Keyed.Ascending data) (items : List Datum) :
    PodSpec.ofFields (Keyed.set "containers" (.list items) data) =
      { PodSpec.ofFields data with containers := items.map Container.ofDatum } := by
  have list : Fields.list "containers" (Keyed.set "containers" (.list items) data) = items := by
    rw [Fields.list, Fields.part?, Keyed.get?_set_self]
    rfl
  simp only [PodSpec.ofFields, list]
  rw [Keyed.erase_set h]

theorem ofFields_set_spec {data : Fields} (h : Keyed.Ascending data) (spec : Fields) :
    ofFields (Keyed.set "spec" (.record spec) data) =
      { ofFields data with spec := some (PodSpec.ofFields spec) } := by
  have metadata : Fields.record? "metadata" (Keyed.set "spec" (.record spec) data) =
      Fields.record? "metadata" data := by
    rw [Fields.record?, Fields.part?, Keyed.get?_set_of_ne (by decide)]
    rfl
  have given : Fields.record? "spec" (Keyed.set "spec" (.record spec) data) = some spec := by
    rw [Fields.record?, Fields.part?, Keyed.get?_set_self]
    rfl
  simp only [ofFields, metadata, given, Option.map_some]
  rw [Keyed.erase_set_of_ne h (by decide), Keyed.erase_set (h.erase "metadata")]

/-- To exchange the items of the list of containers is to exchange the containers of the Pod. -/
theorem Layout.ofJson_set {members spec : Keyed Json} {data specData : Fields} {items : List Json}
    {itemData : List Datum} {pod : Pod} (h : Layout members data spec items specData itemData)
    (read : Read members data pod) {others : List Json} {otherData : List Datum}
    (reads : List.Forall₂ (fun v d => Kubernetes.container.readJson v = .ok d) others otherData) :
    Pod.ofJson (.object (Keyed.set "spec"
        (.object (Keyed.set "containers" (.array others) spec)) members)) =
      .ok { pod with spec := some { PodSpec.ofFields specData with
        containers := otherData.map Container.ofDatum } } := by
  have tidy := Shape.orderly_read _ ascending_pod _ _ (Shape.readJson_eq_ok_iff.mp read.read)
  rw [Datum.tidy_record_iff] at tidy
  have tidySpec := Datum.tidy_record_iff.mp (tidy.get? h.givenSpec)
  have list : (Shape.list Kubernetes.container).readJson (.array others) = .ok (.list otherData) :=
    (Shape.readJson_list (Shape.distinct_of_ascending _ ascending_container)).mpr
      ⟨others, otherData, rfl, rfl, reads⟩
  have readSpec : Kubernetes.podSpec.readJson
      (.object (Keyed.set "containers" (.array others) spec)) =
        .ok (.record (Keyed.set "containers" (.list otherData) specData)) :=
    Shape.readJson_set "containers" ascending_podSpec h.ascending h.readSpec rfl rfl (by simp) list
  have readPod : Kubernetes.pod.readJson (.object (Keyed.set "spec"
      (.object (Keyed.set "containers" (.array others) spec)) members)) =
        .ok (.record (Keyed.set "spec"
          (.record (Keyed.set "containers" (.list otherData) specData)) data)) :=
    Shape.readJson_set "spec" ascending_pod read.ascending read.read rfl rfl (by simp) readSpec
  rw [Pod.ofJson, readPod, read.pod, ← ofFields_set_containers tidySpec.1,
    ← ofFields_set_spec tidy.1]
  rfl

theorem follow?_withImages_image {object : Json} {pod : Pod} (ordered : object.Ordered)
    (h : ofJson object = .ok pod) {image : Json → Option String} {index : Nat} {item : Json}
    {text : String} (found : (containersIn object)[index]? = some item)
    (given : image item = some text) :
    (withImages image object).follow? (imagePath index).steps = some (.text text) := by
  obtain ⟨members, data, rfl, read⟩ := read_of_ofJson ordered h
  rcases read.layout ordered with ⟨spec, items, specData, itemData, layout⟩ | ⟨none, bare⟩
  · rw [layout.containersIn] at found
    obtain ⟨datum, _, readItem⟩ :=
      exists_of_forall₂_left layout.readItems (List.mem_of_getElem? found)
    obtain ⟨parts, rfl⟩ := Shape.object_of_readJson readItem
    rw [layout.withImages]
    simp [imagePath, Json.follow?, Json.child?, Keyed.get?_set_self, Json.Pointer.index?_repr,
      found, given, Container.withImage, Json.setMember]
  · rw [none] at found
    cases found

theorem follow?_withImages_of_apart {object : Json} (ordered : object.Ordered)
    {image : Json → Option String} {steps : List String}
    (apart : ∀ index item, (containersIn object)[index]? = some item → (image item).isSome →
      Json.Apart steps (imagePath index).steps) :
    (withImages image object).follow? steps = object.follow? steps := by
  by_cases given : ∀ item ∈ containersIn object, image item = none
  · rw [withImages_of_none ordered given]
  obtain ⟨item, hi, some⟩ : ∃ item ∈ containersIn object, image item ≠ none := by simpa using given
  obtain ⟨index, found⟩ := List.getElem?_of_mem hi
  -- a way that stops before the list of containers leads along the way to this container
  have onward := (apart index item found (Option.isSome_iff_ne_none.mpr some)).1
  refine Json.follow?_mapMember onward fun spec steps foundSpec same => ?_
  subst same
  rw [imagePath, List.prefix_cons_inj] at onward
  refine Json.follow?_mapMember onward fun list steps foundList same => ?_
  subst same
  rw [List.prefix_cons_inj] at onward
  cases steps with
  | nil => exact absurd List.nil_prefix onward
  | cons step steps =>
      refine Json.follow?_mapItems fun items i item isList isIndex found => ?_
      have inside : containersIn object = items := by
        rw [containersIn, foundSpec, Option.bind_some, foundList, isList]
      cases put : image item with
      | none => rfl
      | some text =>
          have away := apart i item (by rw [inside]; exact found) (by rw [put]; rfl)
          obtain rfl := Json.Pointer.index?_eq_some_iff.mp isIndex
          cases steps with
          | nil => exact absurd (by simp [imagePath]) away.1
          | cons step steps =>
              refine Json.follow?_setMember_of_ne ?_ _ item steps
              rintro rfl
              exact away.2 (by simp [imagePath])

end Pod

namespace ImagePolicy

def Selects (policy : ImagePolicy) (object : Json) : Prop :=
  Pod.labelIn? policy.labelKey object = some (.text policy.labelValue)

instance (policy : ImagePolicy) (object : Json) : Decidable (policy.Selects object) :=
  inferInstanceAs (Decidable (_ = _))

def Names (policy : ImagePolicy) (item : Json) : Prop :=
  Container.nameIn item = policy.containerName

instance (policy : ImagePolicy) (item : Json) : Decidable (policy.Names item) :=
  inferInstanceAs (Decidable (_ = _))

/-- The image that the policy puts into a container of a Pod. -/
def imageFor (policy : ImagePolicy) (object item : Json) : Option String :=
  if policy.Selects object ∧ policy.Names item then some policy.image else none

def rewrite (policy : ImagePolicy) (object : Json) : Json :=
  Pod.withImages (policy.imageFor object) object

theorem selects_iff {policy : ImagePolicy} {object : Json} {pod : Pod} (ordered : object.Ordered)
    (h : Pod.ofJson object = .ok pod) : policy.selects pod = true ↔ policy.Selects object := by
  rw [Selects, ← Pod.labels_of_ofJson ordered h, selects]
  cases pod.labels <;> simp

theorem selects_withImages (policy : ImagePolicy) (image : Json → Option String) (object : Json) :
    policy.Selects (Pod.withImages image object) ↔ policy.Selects object := by
  rw [Selects, Pod.labelIn?_withImages, Selects]

theorem rewrite_of_not_selects {policy : ImagePolicy} {object : Json} (ordered : object.Ordered)
    (h : ¬ policy.Selects object) : policy.rewrite object = object :=
  Pod.withImages_of_none ordered fun item _ => by simp [imageFor, h]

/-- The containers that get the image, by their index. -/
def Targets (policy : ImagePolicy) (object : Json) (index : Nat) : Prop :=
  policy.Selects object ∧
    ∃ item, (Pod.containersIn object)[index]? = some item ∧ policy.Names item

theorem follow?_rewrite_of_apart {policy : ImagePolicy} {object : Json} (ordered : object.Ordered)
    {steps : List String}
    (apart : ∀ index, policy.Targets object index → Json.Apart steps (Pod.imagePath index).steps) :
    (policy.rewrite object).follow? steps = object.follow? steps := by
  refine Pod.follow?_withImages_of_apart ordered fun index item found given => apart index ?_
  rw [imageFor] at given
  split at given
  · next chosen => exact ⟨chosen.1, item, found, chosen.2⟩
  · cases given

theorem imageFor_of_selects {policy : ImagePolicy} {object : Json} (h : policy.Selects object)
    (item : Json) :
    policy.imageFor object item = if policy.Names item then some policy.image else none := by
  simp [imageFor, h]

theorem readJson_withImage {policy : ImagePolicy} {object item : Json} {datum : Datum}
    (selected : policy.Selects object) (ordered : item.Ordered)
    (h : Kubernetes.container.readJson item = .ok datum) :
    ∃ changed, Kubernetes.container.readJson
        (Container.withImage (policy.imageFor object item) item) = .ok changed ∧
      Container.ofDatum changed = policy.enforce (Container.ofDatum datum) := by
  obtain ⟨members, data, rfl, read⟩ := Container.read_of_readJson ordered h
  have tidy := Shape.orderly_read _ ascending_container _ _ (Shape.readJson_eq_ok_iff.mp h)
  rw [Datum.tidy_record_iff] at tidy
  have enforced : policy.enforce (Container.ofDatum (.record data)) =
      policy.enforce (Container.ofFields data) := rfl
  rw [imageFor_of_selects selected, enforced]
  by_cases named : policy.Names item
  · rw [if_pos named]
    refine ⟨.record (Keyed.set "image" (.text policy.image) data), ?_, ?_⟩
    · rw [read.object]
      exact Shape.readJson_set "image" ascending_container read.ascending read.read rfl rfl
        (by simp) (by rw [Shape.readJson_eq_ok_iff]; rfl)
    · have same : (Container.ofFields data).name = policy.containerName := read.name.trans named
      refine (Container.ofFields_set_image tidy.1 policy.image).trans ?_
      rw [enforce]
      by_cases already : (Container.ofFields data).image = some policy.image
      · rw [if_neg (by simp [changes, already]), ← already]
      · rw [if_pos (by simp [changes, same, already])]
  · rw [if_neg named]
    refine ⟨.record data, h, ?_⟩
    have other : ¬ (Container.ofFields data).name = policy.containerName :=
      fun same => named (read.name.symm.trans same)
    rw [enforce_of_not_changes (by simp [changes, other])]
    rfl

theorem readJson_withImages {policy : ImagePolicy} {object : Json}
    (selected : policy.Selects object) {items : List Json} {data : List Datum}
    (ordered : ∀ item ∈ items, item.Ordered)
    (h : List.Forall₂ (fun v d => Kubernetes.container.readJson v = .ok d) items data) :
    ∃ changed : List Datum,
      List.Forall₂ (fun v d => Kubernetes.container.readJson v = .ok d)
        (items.map fun item => Container.withImage (policy.imageFor object item) item) changed ∧
      changed.map Container.ofDatum = (data.map Container.ofDatum).map policy.enforce := by
  induction h with
  | nil => exact ⟨[], .nil, rfl⟩
  | @cons item datum items data head tail ih =>
      obtain ⟨first, read, enforced⟩ :=
        readJson_withImage selected (ordered item List.mem_cons_self) head
      obtain ⟨rest, reads, all⟩ := ih fun i hi => ordered i (List.mem_cons_of_mem item hi)
      exact ⟨first :: rest, .cons read reads, by simp [enforced, all]⟩

theorem apply_of_containers_nil {policy : ImagePolicy} {pod : Pod} (h : pod.containers = []) :
    policy.apply pod = pod := by
  rw [apply]
  split
  · cases spec : pod.spec with
    | none => cases pod; simp_all
    | some s =>
        have none : s.containers = [] := by simpa [Pod.containers, spec] using h
        cases pod
        cases s
        simp_all
  · rfl

/-- What is read from the rewritten JSON of a Pod is the Pod that the policy asks for. -/
theorem ofJson_rewrite {policy : ImagePolicy} {object : Json} {pod : Pod}
    (ordered : object.Ordered) (h : Pod.ofJson object = .ok pod) :
    Pod.ofJson (policy.rewrite object) = .ok (policy.apply pod) := by
  by_cases selected : policy.Selects object
  · obtain ⟨members, data, rfl, read⟩ := Pod.read_of_ofJson ordered h
    rcases read.layout ordered with ⟨spec, items, specData, itemData, layout⟩ | ⟨none, bare⟩
    · have orderedSpec := ordered.get? layout.foundSpec
      have orderedItems := orderedSpec.get? layout.foundItems
      rw [Json.Ordered, Json.orderedItems_iff] at orderedItems
      obtain ⟨changed, reads, enforced⟩ :=
        readJson_withImages selected orderedItems layout.readItems
      have selects := (selects_iff ordered h).mpr selected
      rw [rewrite, layout.withImages, layout.ofJson_set read reads, enforced, apply,
        if_pos selects, read.pod]
      simp [Pod.ofFields, Fields.record?, layout.givenSpec, PodSpec.ofFields, Fields.list,
        layout.givenItems]
    · have unchanged : policy.rewrite (.object members) = .object members :=
        Pod.withImages_of_none ordered (by simp [none])
      rw [unchanged, h, apply_of_containers_nil bare]
  · have unselected : policy.selects pod = false := by
      rw [← Bool.not_eq_true, selects_iff ordered h]
      exact selected
    rw [rewrite_of_not_selects ordered selected, h, apply, unselected]
    rfl

theorem follow?_rewrite_image {policy : ImagePolicy} {object : Json} {pod : Pod}
    (ordered : object.Ordered) (h : Pod.ofJson object = .ok pod) {index : Nat}
    (target : policy.Targets object index) :
    (policy.rewrite object).follow? (Pod.imagePath index).steps = some (.text policy.image) := by
  obtain ⟨selected, item, found, named⟩ := target
  refine Pod.follow?_withImages_image ordered h found ?_
  rw [imageFor_of_selects selected, if_pos named]

end ImagePolicy

end PodWebhook
