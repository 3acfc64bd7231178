import PodWebhook.Proofs.Outcomes
import PodWebhook.Proofs.Schema.Values

/-!
Order among data. What is read by a shape whose fields ascend is written in ascending order again,
at every depth.
-/

namespace PodWebhook.Schema

open Json (Node)
open Json.Node (ofJson)

namespace Datum

theorem itemsToJson_eq (items : List Datum) (values : List Json) :
    itemsToJson items values = values.reverse ++ items.map toJson := by
  induction items generalizing values with
  | nil => simp [itemsToJson]
  | cons item items ih => simp [itemsToJson, ih]

theorem entriesToJson_eq (entries : List (String × Datum)) (values : List (String × Json)) :
    entriesToJson entries values = values.reverse ++ Keyed.mapValues toJson entries := by
  induction entries generalizing values with
  | nil => simp [entriesToJson, Keyed.mapValues]
  | cons entry entries ih => simp [entriesToJson, Keyed.mapValues, ih]

theorem toJson_list (items : List Datum) : (list items).toJson = .array (items.map toJson) := by
  rw [toJson, itemsToJson_eq]
  rfl

theorem toJson_map (entries : List (String × Datum)) :
    (map entries).toJson = .object (Keyed.mapValues toJson entries) := by
  rw [toJson, entriesToJson_eq]
  rfl

theorem toJson_record (fields : Fields) :
    (record fields).toJson = .object (Keyed.mapValues toJson fields) := by
  rw [toJson, entriesToJson_eq]
  rfl

def Tidy (datum : Datum) : Prop := datum.toJson.Ordered

theorem tidy_list_iff {items : List Datum} : (list items).Tidy ↔ ∀ item ∈ items, item.Tidy := by
  rw [Tidy, toJson_list, Json.Ordered, Json.orderedItems_iff]
  simp [Tidy]

end Datum

def Fields.Tidy (fields : Fields) : Prop :=
  Keyed.Ascending fields ∧ ∀ f ∈ fields, f.2.Tidy

theorem ordered_mapValues_iff {fields : Fields} :
    (Json.object (Keyed.mapValues Datum.toJson fields)).Ordered ↔ fields.Tidy := by
  rw [Json.ordered_object_iff, Fields.Tidy]
  refine and_congr ⟨fun h => ?_, fun h => h.mapValues _⟩ ?_
  · simpa [Keyed.Ascending, Keyed.mapValues, List.pairwise_map] using h
  · rw [Keyed.mapValues, List.forall_mem_map]
    rfl

theorem Datum.tidy_map_iff {entries : Fields} : (map entries).Tidy ↔ entries.Tidy := by
  rw [Datum.Tidy, toJson_map, ordered_mapValues_iff]

theorem Datum.tidy_record_iff {fields : Fields} : (record fields).Tidy ↔ fields.Tidy := by
  rw [Datum.Tidy, toJson_record, ordered_mapValues_iff]

theorem Fields.Tidy.erase {fields : Fields} (h : fields.Tidy) (key : String) :
    Fields.Tidy (Keyed.erase key fields) :=
  ⟨h.1.erase key, fun f hf => h.2 f (Keyed.mem_of_mem_erase hf)⟩

theorem Fields.Tidy.set {fields : Fields} (h : fields.Tidy) (key : String) {datum : Datum}
    (hd : datum.Tidy) : Fields.Tidy (Keyed.set key datum fields) := by
  refine ⟨h.1.set key datum, fun f hf => ?_⟩
  rcases Keyed.mem_set hf with rfl | hmem
  · exact hd
  · exact h.2 f hmem

theorem Fields.Tidy.get? {fields : Fields} (h : fields.Tidy) {key : String} {datum : Datum}
    (found : Keyed.get? key fields = some datum) : datum.Tidy :=
  h.2 (key, datum) (Keyed.mem_of_get? found)

theorem mem_maybe {name : String} {datum : Option Datum} {entry : String × Datum} :
    entry ∈ Fields.maybe name datum ↔ entry.1 = name ∧ datum = some entry.2 := by
  cases datum with
  | none => simp [Fields.maybe]
  | some d =>
      rw [Fields.maybe, List.mem_singleton, Prod.ext_iff]
      simp [eq_comm]

theorem assemble_cons {value? : Field → Option (Option Datum)} {field : Field}
    {fields : List Field} {data : Fields} (h : assemble value? (field :: fields) = some data) :
    ∃ datum rest, value? field = some datum ∧ assemble value? fields = some rest ∧
      data = Fields.maybe field.name datum ++ rest := by
  rw [assemble] at h
  obtain ⟨datum, hd, h⟩ := Option.bind_eq_some_iff.mp h
  obtain ⟨rest, hr, h⟩ := Option.bind_eq_some_iff.mp h
  exact ⟨datum, rest, hd, hr, (Option.some.inj h).symm⟩

theorem mem_assemble {value? : Field → Option (Option Datum)} {fields : List Field} {data : Fields}
    (h : assemble value? fields = some data) {entry : String × Datum} (he : entry ∈ data) :
    ∃ field ∈ fields, entry.1 = field.name ∧ value? field = some (some entry.2) := by
  induction fields generalizing data with
  | nil =>
      obtain rfl := Option.some.inj h
      simp at he
  | cons field fields ih =>
      obtain ⟨datum, rest, hd, hr, rfl⟩ := assemble_cons h
      rcases List.mem_append.mp he with first | later
      · obtain ⟨named, rfl⟩ := mem_maybe.mp first
        exact ⟨field, List.mem_cons_self, named, hd⟩
      · obtain ⟨f, hf, found⟩ := ih hr later
        exact ⟨f, List.mem_cons_of_mem field hf, found⟩

theorem ascending_maybe_append {field : Field} {datum : Option Datum} {rest : Fields}
    (first : ∀ entry ∈ rest, field.name < entry.1) (h : Keyed.Ascending rest) :
    Keyed.Ascending (Fields.maybe field.name datum ++ rest) := by
  cases datum with
  | none => exact h
  | some d => exact List.Pairwise.cons first h

theorem ascending_assemble {value? : Field → Option (Option Datum)} {fields : List Field}
    {data : Fields} (names : (fields.map Field.name).Pairwise (· < ·))
    (h : assemble value? fields = some data) : Keyed.Ascending data := by
  induction fields generalizing data with
  | nil =>
      obtain rfl := Option.some.inj h
      exact .nil
  | cons field fields ih =>
      obtain ⟨datum, rest, _, hr, rfl⟩ := assemble_cons h
      rw [List.map_cons, List.pairwise_cons] at names
      refine ascending_maybe_append (fun entry he => ?_) (ih names.2 hr)
      obtain ⟨f, hf, named, _⟩ := mem_assemble hr he
      rw [named]
      exact names.1 f.name (List.mem_map_of_mem hf)

theorem positioned?_cons {field : Field} {fields : List Field} {values : List Json}
    {data : Fields} (h : positioned? (field :: fields) values = some data) :
    ∃ datum rest, data = Fields.maybe field.name datum ++ rest ∧
      (∃ left, positioned? fields left = some rest) ∧
      (datum = some field.shape.default ∨ ∃ value, field.present? value = some datum) := by
  cases values with
  | nil =>
      rw [positioned?] at h
      split at h
      · obtain ⟨rest, hr, rfl⟩ := Option.map_eq_some_iff.mp h
        exact ⟨some field.shape.default, rest, rfl, ⟨[], hr⟩, .inl rfl⟩
      · cases h
  | cons value values =>
      rw [positioned?] at h
      obtain ⟨datum, hd, h⟩ := Option.bind_eq_some_iff.mp h
      obtain ⟨rest, hr, h⟩ := Option.bind_eq_some_iff.mp h
      exact ⟨datum, rest, (Option.some.inj h).symm, ⟨values, hr⟩, .inr ⟨value, hd⟩⟩

namespace Field

/-- A datum of a field is its default value, its fixed text, or has been read. -/
inductive Source (field : Field) : Datum → Prop where
  | default : Source field field.shape.default
  | fixed (text : String) : Source field (.text text)
  | read {value : Json} {datum : Datum} (h : field.datum? value = some datum) :
      Source field datum

theorem source_of_present? {field : Field} {value : Json} {datum : Datum}
    (h : field.present? value = some (some datum)) : field.Source datum := by
  rw [present?] at h
  split at h
  · cases h
  · obtain ⟨d, hd, rfl⟩ : ∃ d, field.datum? value = some d ∧ d = datum := by simpa using h
    exact .read hd

theorem source_of_member? {field : Field} {value : Json} {datum : Datum}
    (h : field.member? value = some (some datum)) : field.Source datum := by
  unfold member? at h
  split at h
  · split at h <;> cases h
  · exact source_of_present? h

theorem source_of_settled? {field : Field} {state : Option (Option Datum)} {datum : Datum}
    (known : ∀ d, state = some (some d) → field.Source d)
    (h : field.settled? state = some (some datum)) : field.Source datum := by
  unfold settled? at h
  split at h
  · obtain rfl := Option.some.inj (Option.some.inj h)
    exact .fixed _
  · cases h
  · cases h
  · obtain rfl := Option.some.inj (Option.some.inj h)
    exact .default
  · obtain rfl := Option.some.inj (Option.some.inj h)
    exact known _ rfl
  · obtain rfl := Option.some.inj (Option.some.inj h)
    exact .default
  · cases h

theorem source_of_foldlM {kind : RecordKind} {field : Field} (values : List Json)
    {before after : Option (Option Datum)} (known : ∀ d, before = some (some d) → field.Source d)
    (h : values.foldlM (field.next? kind) before = some after) :
    ∀ d, after = some (some d) → field.Source d := by
  induction values generalizing before with
  | nil =>
      obtain rfl := Option.some.inj h
      exact known
  | cons value values ih =>
      rw [List.foldlM_cons] at h
      obtain ⟨state, step, h⟩ := Option.bind_eq_some_iff.mp h
      refine ih (fun d hd => ?_) h
      rw [next?] at step
      split at step
      · cases step
      · obtain ⟨datum, hm, rfl⟩ := Option.map_eq_some_iff.mp step
        obtain rfl := Option.some.inj hd
        exact source_of_member? hm

theorem source_of_gathered? {kind : RecordKind} {members : List (String × Json)} {field : Field}
    {datum : Datum} (h : field.gathered? kind members = some (some datum)) :
    field.Source datum := by
  rw [gathered?] at h
  obtain ⟨state, folded, settled⟩ := Option.bind_eq_some_iff.mp h
  exact source_of_settled? (source_of_foldlM _ (fun d hd => by cases hd) folded) settled

end Field

structure Sources (fields : List Field) (data : Fields) : Prop where
  names : (data.map (·.1)).Sublist (fields.map Field.name)
  sources : ∀ entry ∈ data, ∃ field ∈ fields, entry.1 = field.name ∧ field.Source entry.2

theorem Sources.cons {field : Field} {fields : List Field} {datum : Option Datum} {rest : Fields}
    (first : ∀ d, datum = some d → field.Source d) (h : Sources fields rest) :
    Sources (field :: fields) (Fields.maybe field.name datum ++ rest) := by
  have later : ∀ entry ∈ rest, ∃ f ∈ field :: fields, entry.1 = f.name ∧ f.Source entry.2 :=
    fun entry he => (h.sources entry he).imp fun f hf => ⟨List.mem_cons_of_mem field hf.1, hf.2⟩
  cases datum with
  | none => exact ⟨h.names.cons _, later⟩
  | some d =>
      refine ⟨h.names.cons_cons _, List.forall_mem_cons.mpr ⟨?_, later⟩⟩
      exact ⟨field, List.mem_cons_self, rfl, first d rfl⟩

theorem sources_assemble {value? : Field → Option (Option Datum)} {fields : List Field}
    {data : Fields} (sources : ∀ f d, value? f = some (some d) → f.Source d)
    (h : assemble value? fields = some data) : Sources fields data := by
  induction fields generalizing data with
  | nil =>
      obtain rfl := Option.some.inj h
      exact ⟨.slnil, by simp⟩
  | cons field fields ih =>
      obtain ⟨datum, rest, hd, hr, rfl⟩ := assemble_cons h
      exact .cons (fun d same => sources field d (by rw [hd, same])) (ih hr)

theorem sources_positioned? {fields : List Field} {values : List Json} {data : Fields}
    (h : positioned? fields values = some data) : Sources fields data := by
  induction fields generalizing values data with
  | nil =>
      cases values with
      | nil =>
          obtain rfl := Option.some.inj h
          exact ⟨.slnil, by simp⟩
      | cons value values => cases h
  | cons field fields ih =>
      obtain ⟨datum, rest, rfl, ⟨left, hr⟩, source⟩ := positioned?_cons h
      refine .cons ?_ (ih hr)
      rintro d rfl
      rcases source with default | ⟨value, present⟩
      · obtain rfl := Option.some.inj default
        exact .default
      · exact Field.source_of_present? present

theorem Sources.ascending {fields : List Field} {data : Fields} (h : Sources fields data)
    (names : (fields.map Field.name).Pairwise (· < ·)) : Keyed.Ascending data :=
  List.pairwise_map.mp (names.sublist h.names)

theorem Sources.tidy {fields : List Field} {data : Fields} (h : Sources fields data)
    (names : (fields.map Field.name).Pairwise (· < ·))
    (tidy : ∀ f ∈ fields, ∀ d, f.Source d → d.Tidy) : data.Tidy := by
  refine ⟨h.ascending names, fun entry he => ?_⟩
  obtain ⟨f, hf, _, source⟩ := h.sources entry he
  exact tidy f hf _ source

theorem map_eq_ok_iff {α β : Type} {result : Result α} {f : α → β} {b : β} :
    result.map f = .ok b ↔ ∃ a, result = .ok a ∧ f a = b := by
  cases result <;> simp [Except.map]

namespace Shape

theorem names_defaultFields (fields : List (String × Presence × Shape)) :
    ((defaultFields fields).map (·.1)).Sublist (fields.map (·.1)) := by
  induction fields with
  | nil => exact .slnil
  | cons field fields ih =>
      obtain ⟨name, presence, shape⟩ := field
      cases presence with
      | optional => exact ih.cons name
      | fixed text => exact ih.cons_cons name
      | required | filled | defaulted => exact ih.cons_cons name

mutual

theorem tidy_default : (shape : Shape) → shape.ascending = true → shape.default.Tidy
  | .bool, _ | .int _, _ | .text, _ | .numberOrText, _ | .intOrText, _ | .instant, _
  | .variant _, _ => trivial
  | .any, _ => trivial
  | .list _, _ => Datum.tidy_list_iff.mpr (by simp)
  | .map _, _ => Datum.tidy_map_iff.mpr ⟨.nil, by simp⟩
  | .record _ _ fields, h => by
      have names := pairwise_names h
      rw [ascending, namesPass, Bool.and_eq_true] at h
      rw [default]
      exact Datum.tidy_record_iff.mpr
        ⟨List.pairwise_map.mp (names.sublist (names_defaultFields fields)),
          tidy_defaultFields fields h.2⟩

theorem tidy_defaultFields : (fields : List (String × Presence × Shape)) →
    fieldsPass (fun names => decide (names.IsChain (· < ·))) fields = true →
    ∀ entry ∈ defaultFields fields, entry.2.Tidy
  | [], _ => by simp [defaultFields]
  | (name, presence, shape) :: fields, h => by
      rw [fieldsPass, Bool.and_eq_true] at h
      have rest := tidy_defaultFields fields h.2
      cases presence with
      | optional => exact rest
      | fixed text => exact List.forall_mem_cons.mpr ⟨trivial, rest⟩
      | required | filled | defaulted =>
          exact List.forall_mem_cons.mpr ⟨tidy_default shape h.1, rest⟩

end

theorem readJson_eq_ok_iff {shape : Shape} {value : Json} {datum : Datum} :
    shape.readJson value = .ok datum ↔ (shape.read (ofJson value)).toOption = some datum :=
  toOption_eq_some_iff.symm

theorem sources_of_read {kind : RecordKind} {name : String}
    {fields : List (String × Presence × Shape)}
    (distinct : (record kind name fields).distinct = true) {value : Json} {datum : Datum}
    (h : ((record kind name fields).read (ofJson value)).toOption = some datum) :
    ∃ data, datum = .record data ∧ Sources (fieldsOf fields) data := by
  have faithful := faithful_of_distinct distinct
  rw [read] at h
  cases value with
  | object members =>
      rw [readRecord_object (nodup_fieldsOf distinct) faithful (Node.standsFor_ofJson _)] at h
      obtain ⟨data, found, rfl⟩ := Option.map_eq_some_iff.mp h
      exact ⟨data, rfl, sources_assemble (fun f d hd => Field.source_of_gathered? hd) found⟩
  | array items =>
      cases kind with
      | plain =>
          rw [readRecord_array faithful (Node.standsFor_ofJson _)] at h
          obtain ⟨data, found, rfl⟩ := Option.map_eq_some_iff.mp h
          exact ⟨data, rfl, sources_positioned? found⟩
      | object => simp [ofJson, readRecord, Except.toOption] at h
  | null | bool | number | text => simp [ofJson, readRecord, Except.toOption] at h

def Orderly (read : Node → Result Datum) : Prop :=
  ∀ (value : Json) (datum : Datum), (read (ofJson value)).toOption = some datum → datum.Tidy

theorem orderly_readBool : Orderly readBool := by
  intro value datum h
  rw [readBool.eq_def] at h
  split at h <;> cases h
  trivial

theorem orderly_readInt (kind : IntegerKind) : Orderly (readInt kind) := by
  intro value datum h
  rw [readInt.eq_def] at h
  split at h
  · split at h
    · obtain rfl := Option.some.inj h
      trivial
    · cases h
  · cases h

theorem orderly_readText : Orderly readText := by
  intro value datum h
  rw [readText.eq_def] at h
  split at h <;> cases h
  trivial

theorem orderly_readNumberOrText : Orderly readNumberOrText := by
  intro value datum h
  rw [readNumberOrText.eq_def] at h
  split at h <;> cases h <;> trivial

theorem orderly_readIntOrText : Orderly readIntOrText := by
  intro value datum h
  rw [readIntOrText.eq_def] at h
  split at h
  · obtain rfl := Option.some.inj h
    trivial
  · split at h
    · obtain rfl := Option.some.inj h
      trivial
    · cases h
  · cases h

theorem orderly_readInstant : Orderly readInstant := by
  intro value datum h
  rw [readInstant.eq_def] at h
  split at h
  · split at h
    · obtain rfl := Option.some.inj h
      trivial
    · cases h
  · cases h

theorem orderly_readAny : Orderly readAny := by
  intro value datum h
  rw [readAny_toOption (Node.standsFor_ofJson value)] at h
  obtain rfl := Option.some.inj h
  exact Json.ordered_sorted value

theorem orderly_readVariant (names : List String) : Orderly (readVariant names) := by
  intro value datum h
  rw [readVariant_toOption names (Node.standsFor_ofJson value)] at h
  unfold variantText? at h
  split at h
  · split at h <;> cases h
    trivial
  · split at h <;> cases h
    trivial
  · cases h

theorem orderly_readList {read : Node → Result Datum} (faithful : Faithful read)
    (orderly : Orderly read) : Orderly (readList read) := by
  intro value datum h
  cases value with
  | array items =>
      rw [readList_array faithful (Node.standsFor_ofJson _)] at h
      obtain ⟨data, found, rfl⟩ := Option.map_eq_some_iff.mp h
      refine Datum.tidy_list_iff.mpr fun d hd => ?_
      obtain ⟨v, _, hv⟩ := exists_of_forall₂_right (mapM_eq_some_iff.mp found) hd
      exact orderly v d hv
  | null | bool | number | text | object => simp [ofJson, readList, Except.toOption] at h

theorem orderly_readMap {read : Node → Result Datum} (faithful : Faithful read)
    (orderly : Orderly read) : Orderly (readMap read) := by
  intro value datum h
  cases value with
  | object members =>
      rw [readMap_object faithful (Node.standsFor_ofJson _)] at h
      obtain ⟨data, found, rfl⟩ := Option.map_eq_some_iff.mp h
      refine Datum.tidy_map_iff.mpr ⟨Keyed.ascending_ofList data, fun entry he => ?_⟩
      have kept := List.mem_mergeSort.mp (Keyed.mem_of_mem_keepLast he)
      obtain ⟨m, _, hm⟩ := exists_of_forall₂_right (mapM_eq_some_iff.mp found) kept
      obtain ⟨d, hd, rfl⟩ := Option.map_eq_some_iff.mp hm
      exact orderly m.2 d hd
  | null | bool | number | text | array => simp [ofJson, readMap, Except.toOption] at h

mutual

theorem orderly_read : (shape : Shape) → shape.ascending = true → Orderly shape.read
  | .bool, _ => orderly_readBool
  | .int kind, _ => orderly_readInt kind
  | .text, _ => orderly_readText
  | .numberOrText, _ => orderly_readNumberOrText
  | .intOrText, _ => orderly_readIntOrText
  | .instant, _ => orderly_readInstant
  | .any, _ => orderly_readAny
  | .variant names, _ => orderly_readVariant names
  | .list item, ha =>
      orderly_readList (item.faithful_read (item.distinct_of_ascending ha)) (orderly_read item ha)
  | .map value, ha =>
      orderly_readMap (value.faithful_read (value.distinct_of_ascending ha)) (orderly_read value ha)
  | .record kind name fields, ha => by
      intro value datum h
      have names : ((fieldsOf fields).map Field.name).Pairwise (· < ·) := by
        rw [map_name_fieldsOf]
        exact pairwise_names ha
      obtain ⟨data, rfl, sources⟩ := sources_of_read (distinct_of_ascending _ ha) h
      rw [ascending, namesPass, Bool.and_eq_true] at ha
      exact Datum.tidy_record_iff.mpr (sources.tidy names (tidy_fieldsOf fields ha.2))

theorem tidy_fieldsOf : (fields : List (String × Presence × Shape)) →
    fieldsPass (fun names => decide (names.IsChain (· < ·))) fields = true →
    ∀ f ∈ fieldsOf fields, ∀ d, f.Source d → d.Tidy
  | [], _ => by simp [fieldsOf]
  | (name, presence, shape) :: fields, ha => by
      rw [fieldsPass, Bool.and_eq_true] at ha
      intro f hf d source
      rw [fieldsOf] at hf
      rcases List.mem_cons.mp hf with rfl | hmem
      · cases source with
        | default => exact tidy_default shape ha.1
        | fixed text => trivial
        | @read value _ h => exact orderly_read shape ha.1 value d h
      · exact tidy_fieldsOf fields ha.2 f hmem d source

end

end Shape

end PodWebhook.Schema
