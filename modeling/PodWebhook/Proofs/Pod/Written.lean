import PodWebhook.Pod.ImagePolicy
import PodWebhook.Proofs.Json.Parts
import PodWebhook.Proofs.Schema.Members

/-!
Pods as they are written: where labels and containers stand in the JSON of a Pod, and how they come
out of it when the Pod is read. Names that are missing or null count as empty.
-/

namespace PodWebhook

open Schema

namespace Container

def nameIn (item : Json) : String :=
  match item.get? "name" with
  | some (.text s) => s
  | _ => ""

end Container

namespace Pod

def labelIn? (key : String) (object : Json) : Option Json :=
  ((object.get? "metadata").bind (·.get? "labels")).bind (·.get? key)

/-- The containers in the JSON of a Pod, those that run before or beside them apart. -/
def containersIn (object : Json) : List Json :=
  match (object.get? "spec").bind (·.get? "containers") with
  | some (.array items) => items
  | _ => []

end Pod

theorem ascending_pod : Kubernetes.pod.ascending = true := by decide +kernel

theorem ascending_objectMeta : Kubernetes.objectMeta.ascending = true :=
  Shape.ascending_of_find? "metadata" ascending_pod rfl

theorem ascending_podSpec : Kubernetes.podSpec.ascending = true :=
  Shape.ascending_of_find? "spec" ascending_pod rfl

theorem ascending_container : Kubernetes.container.ascending = true := by
  have list : (Shape.list Kubernetes.container).ascending = true :=
    Shape.ascending_of_find? "containers" ascending_podSpec rfl
  exact list

namespace Container

structure Read (item : Json) (members : Keyed Json) (data : Fields) : Prop where
  object : item = .object members
  ascending : Keyed.Ascending members
  read : Kubernetes.container.readJson (.object members) = .ok (.record data)
  name : (ofFields data).name = nameIn item
  image : (Absent "image" members ∧ (ofFields data).image = none) ∨
    ∃ s, Keyed.get? "image" members = some (.text s) ∧ (ofFields data).image = some s

theorem read_of_readJson {item : Json} {datum : Datum} (ordered : item.Ordered)
    (h : Kubernetes.container.readJson item = .ok datum) :
    ∃ members data, datum = .record data ∧ Read item members data := by
  obtain ⟨members, rfl⟩ := Shape.object_of_readJson h
  have ascending := (Json.ordered_object_iff.mp ordered).1
  obtain ⟨data, rfl, _⟩ := (Shape.readJson_object_iff ascending_container ascending).mp h
  refine ⟨members, data, rfl, rfl, ascending, h, ?_, ?_⟩
  · have read := Shape.text_of_readJson "name" ascending_container ascending h rfl rfl
    simp only [ofFields, Fields.text, nameIn, Json.get?]
    rcases read with ⟨missing | null, blank⟩ | ⟨s, found, text⟩
    · simp [missing, blank]
    · simp [null, blank]
    · simp [found, text]
  · exact Shape.text_of_readJson "image" ascending_container ascending h rfl rfl

end Container

theorem textsOf_of_readJson {members : Keyed Json} (ascending : Keyed.Ascending members)
    {datum : Datum} (h : (Shape.map .text).readJson (.object members) = .ok datum) :
    ∃ entries, datum = .map entries ∧ ∀ (key value : String),
      Keyed.get? key (Pod.textsOf entries) = some value ↔
        Keyed.get? key members = some (.text value) := by
  have faithful := Shape.text.faithful_read rfl
  rw [Shape.readJson_eq_ok_iff, Shape.read,
    readMap_object faithful (Json.Node.standsFor_ofJson _)] at h
  obtain ⟨data, found, rfl⟩ := Option.map_eq_some_iff.mp h
  have all := mapM_eq_some_iff.mp found
  obtain ⟨texts, rfl, rfl⟩ : ∃ texts : Keyed String,
      members = Keyed.mapValues .text texts ∧ data = Keyed.mapValues .text texts := by
    clear h found ascending
    induction all with
    | nil => exact ⟨[], rfl, rfl⟩
    | @cons m entry members data head tail ih =>
        obtain ⟨texts, rfl, rfl⟩ := ih
        obtain ⟨d, read, rfl⟩ := Option.map_eq_some_iff.mp head
        obtain ⟨s, hs, rfl⟩ := Shape.readJson_text (Shape.readJson_eq_ok_iff.mpr read)
        exact ⟨(m.1, s) :: texts, by simp [Keyed.mapValues, ← hs], rfl⟩
  refine ⟨_, rfl, fun key value => ?_⟩
  have kept : Keyed.ofList (Keyed.mapValues Datum.text texts) = Keyed.mapValues .text texts := by
    refine Keyed.ofList_of_ascending ?_
    simpa [Keyed.Ascending, Keyed.mapValues, List.pairwise_map] using ascending
  have texts_of : Pod.textsOf (Keyed.mapValues .text texts) = texts := by
    simp [Pod.textsOf, Keyed.mapValues, List.filterMap_map]
  rw [kept, texts_of, Keyed.get?_mapValues]
  simp

namespace Pod

theorem labelsOf_of_readJson {value : Json} {datum : Datum} (ordered : value.Ordered)
    (h : Kubernetes.objectMeta.readJson value = .ok datum) :
    ∃ metadata, datum = .record metadata ∧ ∀ key text,
      (labelsOf metadata).bind (Keyed.get? key) = some text ↔
        (value.get? "labels").bind (·.get? key) = some (.text text) := by
  obtain ⟨members, rfl⟩ := Shape.object_of_readJson h
  have ascending := (Json.ordered_object_iff.mp ordered).1
  obtain ⟨metadata, rfl, _⟩ := (Shape.readJson_object_iff ascending_objectMeta ascending).mp h
  refine ⟨metadata, rfl, fun key text => ?_⟩
  rcases Shape.member_of_readJson "labels" ascending_objectMeta ascending h rfl rfl with
    ⟨missing | null, blank⟩ | ⟨labels, datum, found, _, read, given⟩
  · simp [labelsOf, blank, Json.get?, missing]
  · simp [labelsOf, blank, Json.get?, null]
  · have orderedLabels := ordered.get? found
    cases labels with
    | object entries =>
        obtain ⟨data, rfl, same⟩ :=
          textsOf_of_readJson (Json.ordered_object_iff.mp orderedLabels).1 read
        simp [labelsOf, given, Json.get?, found, same]
    | null | bool | number | text | array =>
        rw [Shape.readJson_eq_ok_iff] at read
        simp [Shape.read, Json.Node.ofJson, readMap, Except.toOption] at read

structure Read (members : Keyed Json) (data : Fields) (pod : Pod) : Prop where
  ascending : Keyed.Ascending members
  read : Kubernetes.pod.readJson (.object members) = .ok (.record data)
  pod : pod = ofFields data

theorem read_of_ofJson {object : Json} {pod : Pod} (ordered : object.Ordered)
    (h : ofJson object = .ok pod) :
    ∃ members data, object = .object members ∧ Read members data pod := by
  obtain ⟨datum, read, rfl⟩ := map_eq_ok_iff.mp h
  obtain ⟨members, rfl⟩ := Shape.object_of_readJson read
  have ascending := (Json.ordered_object_iff.mp ordered).1
  obtain ⟨data, rfl, _⟩ := (Shape.readJson_object_iff ascending_pod ascending).mp read
  exact ⟨members, data, rfl, ascending, read, rfl⟩

theorem labels_of_ofJson {object : Json} {pod : Pod} (ordered : object.Ordered)
    (h : ofJson object = .ok pod) (key text : String) :
    pod.labels.bind (Keyed.get? key) = some text ↔ labelIn? key object = some (.text text) := by
  obtain ⟨members, data, rfl, ascending, read, rfl⟩ := read_of_ofJson ordered h
  simp only [ofFields, labelIn?]
  rcases Shape.member_of_readJson "metadata" ascending_pod ascending read rfl rfl with
    ⟨missing | null, blank⟩ | ⟨value, datum, found, _, readMeta, given⟩
  · simp [Fields.record?, blank, Kubernetes.objectMeta, Kubernetes.object, Shape.default,
      Kubernetes.maybe, Shape.defaultFields, labelsOf, Keyed.get?, Json.get?, missing]
  · simp [Fields.record?, blank, Kubernetes.objectMeta, Kubernetes.object, Shape.default,
      Kubernetes.maybe, Shape.defaultFields, labelsOf, Keyed.get?, Json.get?, null]
  · obtain ⟨metadata, rfl, same⟩ := labelsOf_of_readJson (ordered.get? found) readMeta
    simp [Fields.record?, given, Json.get?, found, same]

def containers (pod : Pod) : List Container :=
  match pod.spec with
  | some spec => spec.containers
  | none => []

/-- Where the containers stand in the JSON of a Pod, and where in what has been read. -/
structure Layout (members : Keyed Json) (data : Fields) (spec : Keyed Json) (items : List Json)
    (specData : Fields) (itemData : List Datum) : Prop where
  foundSpec : Keyed.get? "spec" members = some (.object spec)
  foundItems : Keyed.get? "containers" spec = some (.array items)
  givenSpec : Keyed.get? "spec" data = some (.record specData)
  givenItems : Keyed.get? "containers" specData = some (.list itemData)
  ascending : Keyed.Ascending spec
  readSpec : Kubernetes.podSpec.readJson (.object spec) = .ok (.record specData)
  readItems : List.Forall₂ (fun v d => Kubernetes.container.readJson v = .ok d) items itemData

theorem Read.layout {members : Keyed Json} {data : Fields} {pod : Pod}
    (ordered : (Json.object members).Ordered) (h : Read members data pod) :
    (∃ spec items specData itemData, Layout members data spec items specData itemData) ∨
      (containersIn (.object members) = [] ∧ pod.containers = []) := by
  obtain ⟨ascending, read, rfl⟩ := h
  simp only [containersIn, containers, ofFields, Json.get?]
  rcases Shape.member_of_readJson "spec" ascending_pod ascending read rfl rfl with
    ⟨missing | null, blank⟩ | ⟨value, datum, found, _, readSpec, given⟩
  · exact .inr (by simp [missing, Fields.record?, blank])
  · exact .inr (by simp [null, Fields.record?, blank])
  obtain ⟨spec, rfl⟩ := Shape.object_of_readJson readSpec
  have ascendingSpec := (Json.ordered_object_iff.mp (ordered.get? found)).1
  obtain ⟨specData, rfl, _⟩ :=
    (Shape.readJson_object_iff ascending_podSpec ascendingSpec).mp readSpec
  rcases Shape.member_of_readJson "containers" ascending_podSpec ascendingSpec readSpec rfl rfl with
    ⟨absent, blank⟩ | ⟨list, datum, foundList, _, readList, givenList⟩
  · have none : Fields.list "containers" specData = [] := by
      rw [Fields.list, Fields.part?, blank]
      rfl
    refine .inr ⟨?_, ?_⟩
    · rcases absent with missing | null
      · simp [found, missing]
      · simp [found, null]
    · simp [Fields.record?, given, PodSpec.ofFields, none]
  · obtain ⟨items, itemData, rfl, rfl, readItems⟩ :=
      (Shape.readJson_list (Shape.distinct_of_ascending _ ascending_container)).mp readList
    exact .inl ⟨spec, items, specData, itemData, found, foundList, given, givenList,
      ascendingSpec, readSpec, readItems⟩

end Pod

end PodWebhook
