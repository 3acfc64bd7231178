import PodWebhook.Proofs.Json.Parsing
import PodWebhook.Proofs.Schema.Values

/-!
Which values a plain record accepts: an object whose members give every field its due, no field
twice, or a list with an item for every field.
-/

namespace PodWebhook.Schema

open Json (Node)

/-- A key that occurs once, with a value as `P` wants it. -/
def Once (key : String) (P : Json → Prop) (members : List (String × Json)) : Prop :=
  ∃ value, occurrences key members = [value] ∧ P value

def AtMostOnce (key : String) (P : Json → Prop) (members : List (String × Json)) : Prop :=
  occurrences key members = [] ∨ Once key P members

def OrNull (P : Json → Prop) (value : Json) : Prop := value = .null ∨ P value

theorem Once.congr {key : String} {P Q : Json → Prop} (h : ∀ value, P value ↔ Q value)
    (members : List (String × Json)) : Once key P members ↔ Once key Q members := by
  simp only [Once, h]

theorem AtMostOnce.congr {key : String} {P Q : Json → Prop} (h : ∀ value, P value ↔ Q value)
    (members : List (String × Json)) : AtMostOnce key P members ↔ AtMostOnce key Q members := by
  simp only [AtMostOnce, Once.congr h]

theorem OrNull.congr {P Q : Json → Prop} (h : ∀ value, P value ↔ Q value) (value : Json) :
    OrNull P value ↔ OrNull Q value := by
  simp only [OrNull, h]

namespace Field

theorem present?_isSome_iff (field : Field) (value : Json) :
    (field.present? value).isSome ↔
      (field.presence.admitsNull ∧ value = .null) ∨ (field.datum? value).isSome := by
  rw [present?]
  split
  · next null => simp [null]
  · next value => simp [value]

theorem foldlM_plain (field : Field) (values : List Json) :
    values.foldlM (field.next? .plain) none =
      match values with
      | [] => some none
      | [value] => (field.member? value).map some
      | _ => none := by
  match values with
  | [] => rfl
  | [value] => simp [next?]
  | first :: second :: rest =>
      cases member : field.member? first <;> simp [next?, member]

theorem gathered?_plain_isSome (members : List (String × Json)) (field : Field) :
    (field.gathered? .plain members).isSome ↔
      match occurrences field.name members with
      | [] => field.presence ≠ .required
      | [value] => (field.member? value).isSome
      | _ => False := by
  rw [gathered?, foldlM_plain]
  split
  · cases presence : field.presence <;> simp [settled?, presence]
  · next value _ =>
    cases field.member? value with
    | none => simp
    | some datum => cases presence : field.presence <;> cases datum <;> simp [settled?, presence]
  · simp

end Field

theorem assemble_isSome_iff (value? : Field → Option (Option Datum)) (fields : List Field) :
    (assemble value? fields).isSome ↔ ∀ f ∈ fields, (value? f).isSome := by
  induction fields with
  | nil => simp [assemble]
  | cons field fields ih =>
      rw [List.forall_mem_cons, ← ih, assemble]
      cases value? field <;> cases assemble value? fields <;> simp

theorem positioned?_nil {fields : List Field} {last : Field} (h : last ∈ fields.getLast?)
    (wanted : last.presence ≠ .filled) : positioned? fields [] = none := by
  induction fields with
  | nil => simp at h
  | cons field fields ih =>
      rw [positioned?]
      split
      · next filled =>
        cases fields with
        | nil =>
            obtain rfl : field = last := by simpa using h
            exact absurd filled wanted
        | cons next fields =>
            rw [ih (by simpa using h)]
            rfl
      · rfl

theorem positioned?_isSome_iff {fields : List Field} {last : Field} (h : last ∈ fields.getLast?)
    (wanted : last.presence ≠ .filled) (values : List Json) :
    (positioned? fields values).isSome ↔
      List.Forall₂ (fun f v => (f.present? v).isSome = true) fields values := by
  induction fields generalizing values with
  | nil => simp at h
  | cons field fields ih =>
      cases values with
      | nil => simp [positioned?_nil h wanted]
      | cons value values =>
          rw [positioned?, List.forall₂_cons]
          cases fields with
          | nil =>
              cases field.present? value <;> cases values <;> simp [positioned?]
          | cons next fields =>
              rw [← ih (by simpa using h) values]
              cases field.present? value <;>
                cases positioned? (next :: fields) values <;> simp

namespace Shape

def Accepts (shape : Shape) (value : Json) : Prop :=
  ∃ datum, shape.readJson value = .ok datum

theorem accepts_iff_isSome (shape : Shape) (value : Json) :
    shape.Accepts value ↔ (shape.readJson value).toOption.isSome := by
  rw [Accepts]
  cases shape.readJson value <;> simp [Except.toOption]

/-- What a field of a plain record asks of the members of an object. -/
def Given (field : String × Presence × Shape) (members : List (String × Json)) : Prop :=
  match field.2.1 with
  | .required => Once field.1 field.2.2.Accepts members
  | .filled => AtMostOnce field.1 field.2.2.Accepts members
  | .optional | .defaulted => AtMostOnce field.1 (OrNull field.2.2.Accepts) members
  | .fixed wanted => AtMostOnce field.1 (· = Json.text wanted) members

def Fits (field : String × Presence × Shape) (value : Json) : Prop :=
  (field.2.1.admitsNull = true ∧ value = .null) ∨ field.2.2.Accepts value

theorem fieldsOf_eq_map (fields : List (String × Presence × Shape)) :
    fieldsOf fields = fields.map fun f => ⟨f.1, f.2.1, f.2.2, f.2.2.read⟩ := by
  induction fields with
  | nil => rfl
  | cons field fields ih =>
      obtain ⟨name, presence, shape⟩ := field
      rw [fieldsOf, ih]
      rfl

theorem mem_fieldsOf_of_mem {fields : List (String × Presence × Shape)} {name : String}
    {presence : Presence} {shape : Shape} (h : (name, presence, shape) ∈ fields) :
    (⟨name, presence, shape, shape.read⟩ : Field) ∈ fieldsOf fields := by
  rw [fieldsOf_eq_map]
  exact List.mem_map_of_mem h

theorem gathered?_iff_given (field : String × Presence × Shape) (members : List (String × Json)) :
    (Field.gathered? .plain members ⟨field.1, field.2.1, field.2.2, field.2.2.read⟩).isSome ↔
      Given field members := by
  obtain ⟨name, presence, shape⟩ := field
  have accepts := shape.accepts_iff_isSome
  simp only [readJson] at accepts
  rw [Field.gathered?_plain_isSome]
  cases found : occurrences name members with
  | nil => cases presence <;> simp [Given, AtMostOnce, Once, found]
  | cons value rest =>
      cases rest with
      | nil =>
          cases presence <;>
            simp [Given, AtMostOnce, Once, OrNull, found, Field.member?,
              Field.present?_isSome_iff, Field.datum?, accepts, Presence.admitsNull]
      | cons second rest => cases presence <;> simp [Given, AtMostOnce, Once, found]

theorem present?_iff_fits (field : String × Presence × Shape) (value : Json) :
    (Field.present? ⟨field.1, field.2.1, field.2.2, field.2.2.read⟩ value).isSome ↔
      Fits field value := by
  rw [Field.present?_isSome_iff, Fits, accepts_iff_isSome]
  rfl

theorem accepts_plain {name : String} {fields : List (String × Presence × Shape)}
    {last : String × Presence × Shape} (names : (record .plain name fields).distinct = true)
    (hlast : last ∈ fields.getLast?) (wanted : last.2.1 ≠ .filled) (value : Json) :
    (record .plain name fields).Accepts value ↔
      (∃ members, value = .object members ∧ ∀ f ∈ fields, Given f members) ∨
        ∃ items, value = .array items ∧ List.Forall₂ Fits fields items := by
  have nodup := nodup_fieldsOf names
  have faithful := faithful_of_distinct names
  rw [accepts_iff_isSome, readJson, read]
  cases value with
  | object members =>
      rw [readRecord_object nodup faithful (Node.standsFor_ofJson _), Option.isSome_map,
        assemble_isSome_iff, fieldsOf_eq_map, List.forall_mem_map]
      simp only [gathered?_iff_given]
      simp
  | array items =>
      have lastField : (⟨last.1, last.2.1, last.2.2, last.2.2.read⟩ : Field) ∈
          (fieldsOf fields).getLast? := by
        rw [fieldsOf_eq_map, List.getLast?_map]
        simp [Option.mem_def.mp hlast]
      rw [readRecord_array faithful (Node.standsFor_ofJson _), Option.isSome_map,
        positioned?_isSome_iff lastField wanted, fieldsOf_eq_map, List.forall₂_map_left_iff]
      simp [present?_iff_fits]
  | null | bool | number | text => simp [Node.ofJson, readRecord, Except.toOption]

theorem accepts_text (value : Json) : text.Accepts value ↔ ∃ s, value = .text s := by
  rw [accepts_iff_isSome, readJson, read]
  cases value <;> simp [Node.ofJson, readText, Except.toOption]

theorem accepts_bool (value : Json) : bool.Accepts value ↔ ∃ b, value = .bool b := by
  rw [accepts_iff_isSome, readJson, read]
  cases value <;> simp [Node.ofJson, readBool, Except.toOption]

theorem accepts_any (value : Json) : any.Accepts value := by
  refine ⟨.json value.sorted, ?_⟩
  rw [readJson, read, readAny_toOption (Node.standsFor_ofJson value)]

theorem readDocument_spelled {shape : Shape} (names : shape.distinct = true) {value : Json}
    {bytes : Bytes} (h : Json.DocumentSpelled value bytes)
    (deep : value.depth ≤ Json.Document.maxDepth) :
    (shape.readDocument (Json.Document.ofBytes bytes)).toOption =
      (shape.readJson value).toOption := by
  obtain ⟨node, read, stands⟩ := Json.Document.ofBytes_spelled h deep
  rw [readDocument, read, readJson, ← shape.faithful_read names node value stands]
  cases shape.read node <;> rfl

end Shape

end PodWebhook.Schema
