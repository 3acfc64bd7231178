import Mathlib.Data.List.Chain
import PodWebhook.Proofs.Schema.Records

/-!
Reading by a shape depends on the value that a tree stands for, and on nothing else about the tree.
Lists and maps are read part by part.
-/

namespace PodWebhook.Schema

open Json (Node Key)
open Json.Node (ofJson pair?)

def itemData? (read : Node → Result Datum) (items : List Json) : Option (List Datum) :=
  items.mapM fun item => (read (ofJson item)).toOption

def entryData? (read : Node → Result Datum) (members : List (String × Json)) :
    Option (List (String × Datum)) :=
  members.mapM fun m => (read (ofJson m.2)).toOption.map (m.1, ·)

theorem readItems_eq (read : Node → Result Datum) (nodes : List Node) (data : List Datum) :
    (readItems read nodes data).toOption =
      (nodes.mapM fun node => (read node).toOption).map (data.reverse ++ ·) := by
  induction nodes generalizing data with
  | nil => simp [readItems, Except.toOption]
  | cons node nodes ih =>
      rw [readItems, List.mapM_cons]
      cases read node with
      | error mismatch => rfl
      | ok datum =>
          simp only [ih]
          cases nodes.mapM (fun node => (read node).toOption) <;> simp [Except.toOption]

theorem readList_eq (read : Node → Result Datum) (start opened stop : Nat) (nodes : List Node) :
    (readList read (.array start opened nodes (.closed stop))).toOption =
      (nodes.mapM fun node => (read node).toOption).map .list := by
  have data := readItems_eq read nodes []
  simp only [List.reverse_nil, List.nil_append, Option.map_id'] at data
  rw [readList, ← data]
  cases readItems read nodes [] <;> rfl

theorem readList_array {read : Node → Result Datum} (faithful : Faithful read) {node : Node}
    {items : List Json} (h : node.StandsFor (.array items)) :
    (readList read node).toOption = (itemData? read items).map .list := by
  obtain _ | _ | _ | _ | ⟨start, opened, stop, stand⟩ := h
  rw [readList_eq, itemData?,
    mapM_congr_forall₂ (Node.itemsStandFor_iff.mp stand) fun node _ item => faithful node item]

theorem readEntries_eq (read : Node → Result Datum) (nodes : List (Key × Node))
    (data : List (String × Datum)) :
    (readEntries read nodes data).toOption =
      (nodes.mapM (pair? fun node => (read node).toOption)).map (data.reverse ++ ·) := by
  induction nodes generalizing data with
  | nil => simp [readEntries, Except.toOption]
  | cons m nodes ih =>
      obtain ⟨key, node⟩ := m
      rw [readEntries, List.mapM_cons, pair?]
      cases key.name with
      | error fault => rfl
      | ok name =>
          cases read node with
          | error mismatch => rfl
          | ok datum =>
              simp only [ih]
              cases nodes.mapM (pair? fun node => (read node).toOption) <;>
                simp [Except.toOption]

theorem readMap_eq (read : Node → Result Datum) (start stop : Nat)
    (members : List (Key × Node)) :
    (readMap read (.object start members (.closed stop))).toOption =
      ((members.mapM (pair? fun node => (read node).toOption)).map Keyed.ofList).map .map := by
  have data := readEntries_eq read members []
  simp only [List.reverse_nil, List.nil_append, Option.map_id'] at data
  rw [readMap, ← data]
  cases readEntries read members [] <;> rfl

theorem readMap_object {read : Node → Result Datum} (faithful : Faithful read) {node : Node}
    {members : List (String × Json)} (h : node.StandsFor (.object members)) :
    (readMap read node).toOption =
      (entryData? read members).map fun data => .map (Keyed.ofList data) := by
  obtain _ | _ | _ | _ | _ | ⟨start, stop, stand⟩ := h
  have same := mapM_congr_forall₂ (Node.membersStandFor_iff.mp stand)
    (f := pair? fun node => (read node).toOption)
    (g := fun m => (read (ofJson m.2)).toOption.map (m.1, ·)) fun n _ m named => by
      rw [pair?, named.name, Option.bind_some, faithful n.2 m.2 named.value]
  rw [readMap_eq, entryData?, same, Option.map_map]
  rfl

theorem faithful_readBool : Faithful readBool := by
  intro node value h
  cases h <;> simp [ofJson, readBool, Except.toOption]

theorem faithful_readInt (kind : IntegerKind) : Faithful (readInt kind) := by
  intro node value h
  cases h with
  | number start stop n =>
      cases n with
      | int value =>
          cases holds : kind.holds value <;> simp [ofJson, readInt, holds, Except.toOption]
      | double bits => rfl
  | null | bool | text | array | object => simp [ofJson, readInt, Except.toOption]

theorem faithful_readText : Faithful readText := by
  intro node value h
  cases h <;> simp [ofJson, readText, Except.toOption]

theorem faithful_readNumberOrText : Faithful readNumberOrText := by
  intro node value h
  cases h <;> simp [ofJson, readNumberOrText, Except.toOption]

theorem faithful_readIntOrText : Faithful readIntOrText := by
  intro node value h
  cases h with
  | number start stop n =>
      cases n with
      | int value =>
          cases holds : IntegerKind.i32.holds value <;>
            simp [ofJson, readIntOrText, holds, Except.toOption]
      | double bits => rfl
  | null | bool | text | array | object => simp [ofJson, readIntOrText, Except.toOption]

theorem faithful_readInstant : Faithful readInstant := by
  intro node value h
  cases h with
  | text start stop s =>
      simp only [ofJson, readInstant]
      cases Timestamp.read s <;> rfl
  | null | bool | number | array | object => simp [ofJson, readInstant, Except.toOption]

theorem readAny_toOption {node : Node} {value : Json} (h : node.StandsFor value) :
    readAny node = .ok (.json value.sorted) := by
  rw [readAny, h.toJson]

theorem faithful_readAny : Faithful readAny := by
  intro node value h
  rw [readAny_toOption h, readAny_toOption (Node.standsFor_ofJson value)]

/-- What a variant is, whatever the reason for which it may not be. -/
def variantText? (names : List String) : Json → Option Datum
  | .text found => if found ∈ names then some (.text found) else none
  | .object [(found, .null)] => if found ∈ names then some (.text found) else none
  | _ => none

theorem readVariant_toOption (names : List String) {node : Node} {value : Json}
    (h : node.StandsFor value) :
    (readVariant names node).toOption = variantText? names value := by
  cases h with
  | null | bool | number => simp [readVariant, variantText?, Except.toOption]
  | array => simp [readVariant, variantText?, Except.toOption]
  | text start stop found =>
      by_cases known : found ∈ names <;>
        simp [readVariant, variantText?, checkVariant, known, bind, Except.bind, Except.toOption]
  | object start stop stand =>
      cases stand with
      | nil => simp [readVariant, variantText?, Except.toOption]
      | @cons key name node value nodes members named skippable head tail =>
          by_cases known : name ∈ names
          · cases head <;> cases tail <;>
              simp [readVariant, readVariantEnd, variantText?, named, checkVariant, known, bind,
                Except.bind, Except.toOption]
          · cases head <;> cases tail <;>
              simp [readVariant, variantText?, named, checkVariant, known, bind, Except.bind,
                Except.toOption]

theorem faithful_readVariant (names : List String) : Faithful (readVariant names) := by
  intro node value h
  rw [readVariant_toOption names h, readVariant_toOption names (Node.standsFor_ofJson value)]

theorem faithful_readList {read : Node → Result Datum} (faithful : Faithful read) :
    Faithful (readList read) := by
  intro node value h
  cases value with
  | array items =>
      rw [readList_array faithful h, readList_array faithful (Node.standsFor_ofJson _)]
  | null | bool | number | text | object =>
      cases h
      simp [ofJson, readList, Except.toOption]

theorem faithful_readMap {read : Node → Result Datum} (faithful : Faithful read) :
    Faithful (readMap read) := by
  intro node value h
  cases value with
  | object members =>
      rw [readMap_object faithful h, readMap_object faithful (Node.standsFor_ofJson _)]
  | null | bool | number | text | array =>
      cases h
      simp [ofJson, readMap, Except.toOption]

theorem faithful_readRecord {kind : RecordKind} {name : String} {fields : List Field}
    (distinct : (fields.map Field.name).Nodup) (faithful : ∀ f ∈ fields, Faithful f.read) :
    Faithful (readRecord kind name fields) := by
  intro node value h
  cases value with
  | object members =>
      rw [readRecord_object distinct faithful h,
        readRecord_object distinct faithful (Node.standsFor_ofJson _)]
  | array items =>
      cases kind with
      | plain =>
          rw [readRecord_array faithful h, readRecord_array faithful (Node.standsFor_ofJson _)]
      | object =>
          cases h
          simp [ofJson, readRecord, Except.toOption]
  | null | bool | number | text =>
      cases h
      simp [ofJson, readRecord, Except.toOption]

namespace Shape

mutual

def namesPass (check : List String → Bool) : Shape → Bool
  | .list item => namesPass check item
  | .map value => namesPass check value
  | .record _ _ fields => check (fields.map (·.1)) && fieldsPass check fields
  | _ => true

def fieldsPass (check : List String → Bool) : List (String × Presence × Shape) → Bool
  | [] => true
  | (_, _, shape) :: fields => namesPass check shape && fieldsPass check fields

end

def distinct (shape : Shape) : Bool := shape.namesPass fun names => decide names.Nodup

def ascending (shape : Shape) : Bool :=
  shape.namesPass fun names => decide (names.IsChain (· < ·))

mutual

theorem namesPass_mono {check other : List String → Bool}
    (weaker : ∀ names, check names = true → other names = true) :
    (shape : Shape) → shape.namesPass check = true → shape.namesPass other = true
  | .bool, _ | .int _, _ | .text, _ | .numberOrText, _ | .intOrText, _ | .instant, _ | .any, _
  | .variant _, _ => rfl
  | .list item, h => namesPass_mono weaker item h
  | .map value, h => namesPass_mono weaker value h
  | .record _ _ fields, h => by
      rw [namesPass, Bool.and_eq_true] at h ⊢
      exact ⟨weaker _ h.1, fieldsPass_mono weaker fields h.2⟩

theorem fieldsPass_mono {check other : List String → Bool}
    (weaker : ∀ names, check names = true → other names = true) :
    (fields : List (String × Presence × Shape)) → fieldsPass check fields = true →
      fieldsPass other fields = true
  | [], _ => rfl
  | (_, _, shape) :: fields, h => by
      rw [fieldsPass, Bool.and_eq_true] at h ⊢
      exact ⟨namesPass_mono weaker shape h.1, fieldsPass_mono weaker fields h.2⟩

end

theorem namesPass_of_mem {check : List String → Bool}
    {fields : List (String × Presence × Shape)} (h : fieldsPass check fields = true)
    {field : String × Presence × Shape} (hf : field ∈ fields) :
    field.2.2.namesPass check = true := by
  induction fields with
  | nil => simp at hf
  | cons first fields ih =>
      rw [fieldsPass, Bool.and_eq_true] at h
      rcases List.mem_cons.mp hf with rfl | hmem
      · exact h.1
      · exact ih h.2 hmem

theorem map_name_fieldsOf (fields : List (String × Presence × Shape)) :
    (fieldsOf fields).map Field.name = fields.map (·.1) := by
  induction fields with
  | nil => rfl
  | cons field fields ih => simp [fieldsOf, ih]

section Records

variable {kind : RecordKind} {name : String} {fields : List (String × Presence × Shape)}

theorem nodup_fieldsOf (h : (record kind name fields).distinct = true) :
    ((fieldsOf fields).map Field.name).Nodup := by
  rw [distinct, namesPass, Bool.and_eq_true, decide_eq_true_eq] at h
  rw [map_name_fieldsOf]
  exact h.1

theorem distinct_of_mem (h : (record kind name fields).distinct = true)
    {field : String × Presence × Shape} (hf : field ∈ fields) : field.2.2.distinct = true := by
  rw [distinct, namesPass, Bool.and_eq_true] at h
  exact namesPass_of_mem h.2 hf

theorem pairwise_names (h : (record kind name fields).ascending = true) :
    (fields.map (·.1)).Pairwise (· < ·) := by
  rw [ascending, namesPass, Bool.and_eq_true, decide_eq_true_eq] at h
  exact List.isChain_iff_pairwise.mp h.1

theorem ascending_of_find? (key : String) {presence : Presence} {shape : Shape}
    (h : (record kind name fields).ascending = true)
    (hf : fields.find? (·.1 == key) = some (key, presence, shape)) : shape.ascending = true := by
  rw [ascending, namesPass, Bool.and_eq_true] at h
  exact namesPass_of_mem h.2 (List.mem_of_find?_eq_some hf)

end Records

theorem distinct_of_ascending (shape : Shape) (h : shape.ascending = true) :
    shape.distinct = true := by
  refine namesPass_mono (fun names chain => ?_) shape h
  rw [decide_eq_true_eq] at chain ⊢
  exact (List.isChain_iff_pairwise.mp chain).imp fun lt => lt.ne

mutual

theorem faithful_read : (shape : Shape) → shape.distinct = true → Faithful shape.read
  | .bool, _ => by
      rw [read]
      exact faithful_readBool
  | .int kind, _ => by
      rw [read]
      exact faithful_readInt kind
  | .text, _ => by
      rw [read]
      exact faithful_readText
  | .numberOrText, _ => by
      rw [read]
      exact faithful_readNumberOrText
  | .intOrText, _ => by
      rw [read]
      exact faithful_readIntOrText
  | .instant, _ => by
      rw [read]
      exact faithful_readInstant
  | .any, _ => by
      rw [read]
      exact faithful_readAny
  | .variant names, _ => by
      rw [read]
      exact faithful_readVariant names
  | .list item, h => by
      rw [read]
      rw [distinct, namesPass] at h
      exact faithful_readList (faithful_read item h)
  | .map value, h => by
      rw [read]
      rw [distinct, namesPass] at h
      exact faithful_readMap (faithful_read value h)
  | .record kind name fields, h => by
      have names := nodup_fieldsOf h
      rw [distinct, namesPass, Bool.and_eq_true] at h
      rw [read]
      exact faithful_readRecord names (faithful_fieldsOf fields h.2)

theorem faithful_fieldsOf : (fields : List (String × Presence × Shape)) →
    fieldsPass (fun names => decide names.Nodup) fields = true →
    ∀ f ∈ fieldsOf fields, Faithful f.read
  | [], _ => by simp [fieldsOf]
  | (name, presence, shape) :: fields, h => by
      rw [fieldsPass, Bool.and_eq_true] at h
      intro f hf
      rw [fieldsOf] at hf
      rcases List.mem_cons.mp hf with rfl | hmem
      · exact faithful_read shape h.1
      · exact faithful_fieldsOf fields h.2 f hmem

end

theorem faithful_of_distinct {kind : RecordKind} {name : String}
    {fields : List (String × Presence × Shape)}
    (h : (record kind name fields).distinct = true) : ∀ f ∈ fieldsOf fields, Faithful f.read := by
  rw [distinct, namesPass, Bool.and_eq_true] at h
  exact faithful_fieldsOf fields h.2

end Shape

end PodWebhook.Schema
