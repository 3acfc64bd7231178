import PodWebhook.Proofs.Json.Writing
import PodWebhook.Proofs.Schema.Members
import PodWebhook.Proofs.Schema.Typing

/-!
Data that are written and read again. A datum that a shape has comes back from its JSON
(`Shape.readJson_toJson`), and from the text of that JSON if what is in it as raw JSON does
(`Shape.readDocument_compact`).
-/

namespace PodWebhook.Schema

open Json (Node)
open Json.Node (ofJson)

variable {raw : Json → Prop}

theorem HasFields.names {fields : List (String × Presence × Shape)} {data : Fields}
    (h : HasFields raw fields data) : (data.map (·.1)).Sublist (fields.map (·.1)) := by
  rw [← Shape.map_name_fieldsOf]
  exact ((hasFields_iff_assembled fields data).mp h).names

theorem HasFields.get? {fields : List (String × Presence × Shape)} {data : Fields}
    (distinct : (fields.map (·.1)).Nodup) (h : HasFields raw fields data)
    {field : String × Presence × Shape} (hf : field ∈ fields) :
    HasField raw field.2.1 field.2.2 (Keyed.get? field.1 data) := by
  rw [← Shape.map_name_fieldsOf] at distinct
  have own : (⟨field.1, field.2.1, field.2.2, field.2.2.read⟩ : Field) ∈ Shape.fieldsOf fields := by
    rw [Shape.fieldsOf_eq_map]
    exact List.mem_map.mpr ⟨field, hf, rfl⟩
  exact ((hasFields_iff_assembled fields data).mp h).get? distinct own

theorem HasFields.required {fields : List (String × Presence × Shape)} {data : Fields}
    (distinct : (fields.map (·.1)).Nodup) (h : HasFields raw fields data) {name : String}
    {shape : Shape} (hf : (name, .required, shape) ∈ fields) :
    ∃ datum, Keyed.get? name data = some datum ∧ shape.Has raw datum := by
  have field := h.get? distinct hf
  generalize Keyed.get? name data = found at field
  cases field with
  | required has => exact ⟨_, rfl, has⟩

theorem HasFields.assemble_get? {fields : List (String × Presence × Shape)} {data : Fields}
    (distinct : (fields.map (·.1)).Nodup) (h : HasFields raw fields data) :
    assemble (fun f => some (Keyed.get? f.name data)) (Shape.fieldsOf fields) = some data := by
  induction fields generalizing data with
  | nil =>
      cases h
      rfl
  | cons first fields ih =>
      rw [List.map_cons, List.nodup_cons] at distinct
      cases h with
      | @cons name presence shape datum _ rest head tail =>
          have others :
              assemble (fun f => some (Keyed.get? f.name (Fields.maybe name datum ++ rest)))
                (Shape.fieldsOf fields) = some rest := by
            rw [← ih distinct.2 tail]
            refine assemble_congr fun f hf => ?_
            have ne : name ≠ f.name := fun same =>
              distinct.1 (by
                rw [← Shape.map_name_fieldsOf]
                exact List.mem_map.mpr ⟨f, hf, same.symm⟩)
            rw [get?_maybe_append_of_ne ne]
          have fresh : name ∉ rest.map (·.1) := fun later => distinct.1 (tail.names.subset later)
          rw [Shape.fieldsOf, assemble, others, get?_maybe_append_self fresh]
          rfl

/-- A reader to which the JSON of a datum is that datum. -/
def Returns (raw : Json → Prop) (shape : Shape) (read : Node → Result Datum) : Prop :=
  ∀ datum, shape.Has raw datum → (read (ofJson datum.toJson)).toOption = some datum

theorem given?_toJson {field : Field} (returns : Returns raw field.shape field.read)
    {datum : Option Datum} (h : HasField raw field.presence field.shape datum) :
    field.given? (datum.map Datum.toJson) = some datum := by
  obtain ⟨name, presence, shape, read⟩ := field
  have found : ∀ d, shape.Has raw d →
      Field.datum? ⟨name, presence, shape, read⟩ d.toJson = some d := returns
  cases h with
  | required has | filled has =>
      simp [Field.given?, Field.member?, Field.present?, Presence.admitsNull, found _ has,
        Field.settled?]
  | optional has notNull =>
      have written := mt Datum.toJson_eq_null_iff.mp notNull
      simp [Field.given?, Field.member?, Field.present?, Presence.admitsNull, found _ has, written,
        Field.settled?]
  | absent => rfl

theorem returns_readRecord {kind : RecordKind} {name : String}
    {fields : List (String × Presence × Shape)}
    (distinct : ((Shape.fieldsOf fields).map Field.name).Nodup)
    (faithful : ∀ f ∈ Shape.fieldsOf fields, Faithful f.read)
    (returns : ∀ f ∈ Shape.fieldsOf fields, Returns raw f.shape f.read) :
    Returns raw (.record kind name fields) (readRecord kind name (Shape.fieldsOf fields)) := by
  intro datum h
  obtain ⟨data, has, rfl⟩ : ∃ data, HasFields raw fields data ∧ datum = .record data := by
    cases h with
    | record has => exact ⟨_, has, rfl⟩
  have names := distinct
  rw [Shape.map_name_fieldsOf] at names
  have nodup : ((Keyed.mapValues Datum.toJson data).map (·.1)).Nodup := by
    rw [Keyed.mapValues, List.map_map]
    exact has.names.nodup names
  have gathered : ∀ f ∈ Shape.fieldsOf fields,
      f.gathered? kind (Keyed.mapValues Datum.toJson data) = some (Keyed.get? f.name data) := by
    intro f hf
    have own := hf
    rw [Shape.fieldsOf_eq_map] at own
    obtain ⟨field, hfield, rfl⟩ := List.mem_map.mp own
    rw [Field.gathered?_of_nodup kind nodup, Keyed.get?_mapValues]
    exact given?_toJson (returns _ hf) (has.get? names hfield)
  rw [Datum.toJson_record, readRecord_object distinct faithful (Node.standsFor_ofJson _),
    assemble_congr gathered, has.assemble_get? names]
  rfl

theorem returns_readList {item : Shape} {read : Node → Result Datum} (faithful : Faithful read)
    (returns : Returns raw item read) : Returns raw (.list item) (readList read) := by
  intro datum h
  cases h with
  | @list _ data has =>
      have items : itemData? read (data.map Datum.toJson) = some data := by
        rw [itemData?, mapM_eq_some_iff, List.forall₂_map_left_iff, List.forall₂_same]
        exact fun d hd => returns d (has d hd)
      rw [Datum.toJson_list, readList_array faithful (Node.standsFor_ofJson _), items]
      rfl

theorem returns_readMap {value : Shape} {read : Node → Result Datum} (faithful : Faithful read)
    (returns : Returns raw value read) : Returns raw (.map value) (readMap read) := by
  intro datum h
  cases h with
  | @map _ entries ascending has =>
      have data : entryData? read (Keyed.mapValues Datum.toJson entries) = some entries := by
        rw [entryData?, mapM_eq_some_iff, Keyed.mapValues, List.forall₂_map_left_iff,
          List.forall₂_same]
        intro entry he
        rw [returns entry.2 (has entry he)]
        rfl
      rw [Datum.toJson_map, readMap_object faithful (Node.standsFor_ofJson _), data]
      simp [Keyed.ofList_of_ascending ascending]

namespace Shape

mutual

theorem returns_read (ordered : ∀ value, raw value → value.Ordered) :
    (shape : Shape) → shape.distinct = true → Returns raw shape shape.read
  | .bool, _ => fun _ h => by cases h; rfl
  | .int kind, _ => fun _ h => by
      cases h with
      | int holds => simp [read, Datum.toJson, ofJson, readInt, holds, Except.toOption]
  | .text, _ => fun _ h => by cases h; rfl
  | .numberOrText, _ => fun _ h => by cases h; rfl
  | .intOrText, _ => fun _ h => by
      cases h with
      | smallInt holds => simp [read, Datum.toJson, ofJson, readIntOrText, holds, Except.toOption]
      | smallText => rfl
  | .instant, _ => fun _ h => nomatch h
  | .any, _ => fun _ h => by
      cases h with
      | @any value known =>
          rw [read, Datum.toJson, readAny_toOption (Node.standsFor_ofJson value),
            Json.sorted_of_ordered value (ordered value known)]
          rfl
  | .variant names, _ => fun _ h => by
      cases h with
      | variant known =>
          rw [read, readVariant_toOption names (Node.standsFor_ofJson _)]
          simp [Datum.toJson, variantText?, known]
  | .list item, hd => returns_readList (item.faithful_read hd) (returns_read ordered item hd)
  | .map value, hd => returns_readMap (value.faithful_read hd) (returns_read ordered value hd)
  | .record kind name fields, hd => by
      have names := nodup_fieldsOf hd
      have faithful := faithful_of_distinct hd
      rw [distinct, namesPass, Bool.and_eq_true] at hd
      exact returns_readRecord names faithful (returns_fieldsOf ordered fields hd.2)

theorem returns_fieldsOf (ordered : ∀ value, raw value → value.Ordered) :
    (fields : List (String × Presence × Shape)) →
      fieldsPass (fun names => decide names.Nodup) fields = true →
      ∀ f ∈ fieldsOf fields, Returns raw f.shape f.read
  | [], _ => by simp [fieldsOf]
  | (name, presence, shape) :: fields, hd => by
      rw [fieldsPass, Bool.and_eq_true] at hd
      rw [fieldsOf, List.forall_mem_cons]
      exact ⟨returns_read ordered shape hd.1, returns_fieldsOf ordered fields hd.2⟩

end

theorem readJson_toJson (ordered : ∀ value, raw value → value.Ordered) {shape : Shape}
    (distinct : shape.distinct = true) {datum : Datum} (h : shape.Has raw datum) :
    shape.readJson datum.toJson = .ok datum :=
  readJson_eq_ok_iff.mpr (returns_read ordered shape distinct datum h)

mutual

/-- How deep brackets are nested in what a shape has, where those of raw JSON are `inner` deep. -/
def depth (inner : Nat) : Shape → Nat
  | .any => inner
  | .list item => depth inner item + 1
  | .map value => depth inner value + 1
  | .record _ _ fields => fieldsDepth inner fields + 1
  | _ => 0

def fieldsDepth (inner : Nat) : List (String × Presence × Shape) → Nat
  | [] => 0
  | (_, _, shape) :: fields => max (depth inner shape) (fieldsDepth inner fields)

end

end Shape

structure Legible (deep : Nat) (value : Json) : Prop where
  integral : value.Integral
  shallow : value.depth ≤ deep

theorem Legible.mono {low high : Nat} (le : low ≤ high) {value : Json} (h : Legible low value) :
    Legible high value :=
  ⟨h.integral, Nat.le_trans h.shallow le⟩

theorem legible_array {deep : Nat} {items : List Json} (h : ∀ item ∈ items, Legible deep item) :
    Legible (deep + 1) (.array items) where
  integral := Json.integralItems_iff.mpr fun item hi => (h item hi).integral
  shallow := Nat.succ_le_succ (Json.depthItems_le fun item hi => (h item hi).shallow)

theorem legible_object {deep : Nat} {members : List (String × Json)}
    (h : ∀ m ∈ members, Legible deep m.2) : Legible (deep + 1) (.object members) where
  integral := Json.integralMembers_iff.mpr fun m hm => (h m hm).integral
  shallow := Nat.succ_le_succ (Json.depthMembers_le fun m hm => (h m hm).shallow)

theorem fits_of_holds {kind : IntegerKind} {value : Int} (h : kind.holds value = true) :
    Json.Number.fits value = true := by
  cases kind <;>
    simp only [IntegerKind.holds, Json.Number.fits, Bool.and_eq_true, decide_eq_true_eq] at h ⊢ <;>
    omega

theorem legible_int {kind : IntegerKind} {value : Int} (h : kind.holds value = true) :
    Legible 0 (.number (.int value)) :=
  ⟨fits_of_holds h, Nat.le_refl 0⟩

theorem legible_text (value : String) : Legible 0 (.text value) := ⟨trivial, Nat.le_refl 0⟩

theorem legible_entries {deep : Nat} {data : Fields}
    (h : ∀ entry ∈ data, Legible deep entry.2.toJson) :
    Legible (deep + 1) (.object (Keyed.mapValues Datum.toJson data)) :=
  legible_object (List.forall_mem_map.mpr h)

namespace Shape

variable {inner : Nat}

mutual

theorem legible_toJson (legible : ∀ value, raw value → Legible inner value) :
    (shape : Shape) → {datum : Datum} → shape.Has raw datum →
      Legible (shape.depth inner) datum.toJson
  | .bool, _, h => by cases h; exact ⟨trivial, Nat.le_refl 0⟩
  | .int _, _, h => by cases h with | int holds => exact legible_int holds
  | .text, _, h => by cases h; exact legible_text _
  | .numberOrText, _, h => by cases h; exact legible_text _
  | .intOrText, _, h => by
      cases h with
      | smallInt holds => exact legible_int holds
      | smallText => exact legible_text _
  | .instant, _, h => nomatch h
  | .any, _, h => by cases h with | any known => exact legible _ known
  | .variant _, _, h => by cases h; exact legible_text _
  | .list item, _, h => by
      cases h with
      | list has =>
          rw [Datum.toJson_list]
          exact legible_array (List.forall_mem_map.mpr fun d hd =>
            legible_toJson legible item (has d hd))
  | .map value, _, h => by
      cases h with
      | map _ has =>
          rw [Datum.toJson_map]
          exact legible_entries fun entry he => legible_toJson legible value (has entry he)
  | .record _ _ fields, _, h => by
      cases h with
      | record has =>
          rw [Datum.toJson_record]
          exact legible_entries (legible_fields legible fields has)

theorem legible_fields (legible : ∀ value, raw value → Legible inner value) :
    (fields : List (String × Presence × Shape)) → {data : Fields} → HasFields raw fields data →
      ∀ entry ∈ data, Legible (fieldsDepth inner fields) entry.2.toJson
  | [], _, h => by
      cases h
      simp
  | (name, presence, shape) :: fields, _, h => by
      cases h with
      | @cons _ _ _ datum _ rest head tail =>
          have own : ∀ d, shape.Has raw d →
              Legible (fieldsDepth inner ((name, presence, shape) :: fields)) d.toJson :=
            fun d has => (legible_toJson legible shape has).mono (Nat.le_max_left ..)
          intro entry he
          rcases List.mem_append.mp he with first | later
          · cases head with
            | required has | filled has | optional has =>
                obtain rfl := List.mem_singleton.mp first
                exact own _ has
            | absent => cases first
          · exact (legible_fields legible fields tail entry later).mono (Nat.le_max_right ..)

end

theorem readDocument_compact (ordered : ∀ value, raw value → value.Ordered)
    (legible : ∀ value, raw value → Legible inner value) {shape : Shape}
    (distinct : shape.distinct = true) (deep : shape.depth inner ≤ Json.Document.maxDepth)
    {datum : Datum} (h : shape.Has raw datum) :
    shape.readDocument (Json.Document.ofBytes (Bytes.utf8 datum.toJson.compact)) = .ok datum := by
  have fine := legible_toJson legible shape h
  have read := readDocument_spelled distinct (Json.documentSpelled_compact fine.integral)
    (Nat.le_trans fine.shallow deep)
  rw [readJson_toJson ordered distinct h] at read
  exact toOption_eq_some_iff.mp read

end Shape

end PodWebhook.Schema
