import PodWebhook.Proofs.Schema.Acceptance
import PodWebhook.Proofs.Schema.Order

/-!
Members and fields. In an object whose keys ascend every member stands for one field, so that a
field of the record that is read can be told from its member, and to exchange a member is to
exchange a field.
-/

namespace PodWebhook.Schema

open Json (Node)
open Json.Node (ofJson)

theorem occurrences_eq_nil {key : String} {members : Keyed Json}
    (h : ∀ m ∈ members, m.1 ≠ key) : occurrences key members = [] := by
  rw [occurrences, List.filter_eq_nil_iff.mpr (by simpa using h)]
  rfl

theorem occurrences_of_nodup (key : String) {members : Keyed Json}
    (h : (members.map (·.1)).Nodup) :
    occurrences key members = (Keyed.get? key members).toList := by
  induction members with
  | nil => rfl
  | cons m members ih =>
      obtain ⟨name, value⟩ := m
      rw [List.map_cons, List.nodup_cons] at h
      by_cases own : name = key
      · subst own
        have later : ∀ m ∈ members, m.1 ≠ name :=
          fun m hm same => h.1 (List.mem_map.mpr ⟨m, hm, same⟩)
        rw [occurrences_cons_self, occurrences_eq_nil later]
        simp [Keyed.get?]
      · rw [occurrences_cons_of_ne (Ne.symm own), ih h.2]
        simp [Keyed.get?, own]

def Absent (key : String) (members : Keyed Json) : Prop :=
  Keyed.get? key members = none ∨ Keyed.get? key members = some .null

namespace Field

def given? (field : Field) (found : Option Json) : Option (Option Datum) :=
  match found with
  | none => field.settled? none
  | some value => (field.member? value).bind fun datum => field.settled? (some datum)

theorem gathered?_of_nodup (kind : RecordKind) {members : Keyed Json}
    (h : (members.map (·.1)).Nodup) (field : Field) :
    field.gathered? kind members = field.given? (Keyed.get? field.name members) := by
  rw [gathered?, occurrences_of_nodup field.name h]
  cases Keyed.get? field.name members with
  | none => rfl
  | some value =>
      simp only [Option.toList_some, List.foldlM_cons, List.foldlM_nil, given?, next?]
      cases field.member? value <;> simp

/-- What a field has that may be null and has no value. -/
def blank (field : Field) : Option Datum :=
  if field.presence = .defaulted then some field.shape.default else none

theorem settled?_of_admitsNull {field : Field} (nullable : field.presence.admitsNull = true)
    (datum : Datum) : field.settled? (some (some datum)) = some (some datum) := by
  cases presence : field.presence <;> simp_all [settled?, Presence.admitsNull]

theorem given?_of_admitsNull {field : Field} (nullable : field.presence.admitsNull = true)
    {found : Option Json} {datum : Option Datum} (h : field.given? found = some datum) :
    ((found = none ∨ found = some .null) ∧ datum = field.blank) ∨
      ∃ value d, found = some value ∧ value ≠ .null ∧ field.datum? value = some d ∧
        datum = some d := by
  have settledNone : ∀ state, state = none ∨ state = some none →
      field.settled? state = some field.blank := by
    rintro state (rfl | rfl) <;> cases presence : field.presence <;>
      simp_all [settled?, blank, Presence.admitsNull]
  have member : ∀ value, field.member? value = field.present? value := by
    intro value
    cases presence : field.presence <;> simp_all [member?, Presence.admitsNull]
  cases found with
  | none =>
      rw [given?, settledNone none (.inl rfl)] at h
      exact .inl ⟨.inl rfl, (Option.some.inj h).symm⟩
  | some value =>
      simp only [given?, member, present?, nullable, true_and] at h
      split at h
      · next null =>
        rw [Option.bind_some, settledNone (some none) (.inr rfl)] at h
        exact .inl ⟨.inr (by rw [null]), (Option.some.inj h).symm⟩
      · next notNull =>
        cases found : field.datum? value with
        | none => simp [found] at h
        | some d =>
            refine .inr ⟨value, d, rfl, notNull, found, ?_⟩
            simp only [found, Option.map_some, Option.bind_some,
              settled?_of_admitsNull nullable] at h
            exact (Option.some.inj h).symm

theorem given?_some {field : Field} (nullable : field.presence.admitsNull = true) {value : Json}
    {datum : Datum} (notNull : value ≠ .null) (h : field.datum? value = some datum) :
    field.given? (some value) = some (some datum) := by
  have member : field.member? value = some (some datum) := by
    cases presence : field.presence <;>
      simp_all [member?, present?, Presence.admitsNull]
  rw [given?, member, Option.bind_some, settled?_of_admitsNull nullable]

end Field

@[simp] theorem get?_maybe_append (name key : String) (datum : Option Datum) (rest : Fields) :
    Keyed.get? key (Fields.maybe name datum ++ rest) =
      if name = key then datum.or (Keyed.get? key rest) else Keyed.get? key rest := by
  cases datum <;> by_cases own : name = key <;> simp [Fields.maybe, Keyed.get?, own]

theorem get?_maybe_append_of_ne {name key : String} (ne : name ≠ key) (datum : Option Datum)
    (rest : Fields) : Keyed.get? key (Fields.maybe name datum ++ rest) = Keyed.get? key rest := by
  rw [get?_maybe_append, if_neg ne]

theorem get?_maybe_append_self {name : String} {rest : Fields} (fresh : name ∉ rest.map (·.1))
    (datum : Option Datum) : Keyed.get? name (Fields.maybe name datum ++ rest) = datum := by
  have later : Keyed.get? name rest = none := Keyed.get?_eq_none_of_forall fun entry he same =>
    fresh (same ▸ List.mem_map_of_mem he)
  rw [get?_maybe_append, if_pos rfl, later, Option.or_none]

theorem names_assemble {value? : Field → Option (Option Datum)} {fields : List Field}
    {data : Fields} (h : assemble value? fields = some data) :
    data.map (·.1) ⊆ fields.map Field.name := by
  intro key hkey
  obtain ⟨entry, he, rfl⟩ := List.mem_map.mp hkey
  obtain ⟨f, hf, named, _⟩ := mem_assemble h he
  exact List.mem_map.mpr ⟨f, hf, named.symm⟩

theorem get?_assemble_of_forall_ne {value? : Field → Option (Option Datum)} {fields : List Field}
    {data : Fields} (h : assemble value? fields = some data) {key : String}
    (ne : ∀ f ∈ fields, f.name ≠ key) : Keyed.get? key data = none := by
  refine Keyed.get?_eq_none_of_forall fun entry he => ?_
  obtain ⟨f, hf, named⟩ := List.mem_map.mp (names_assemble h (List.mem_map_of_mem he))
  rw [← named]
  exact ne f hf

theorem get?_assemble {value? : Field → Option (Option Datum)} {fields : List Field}
    {data : Fields} (distinct : (fields.map Field.name).Nodup)
    (h : assemble value? fields = some data) {field : Field} (hf : field ∈ fields) :
    value? field = some (Keyed.get? field.name data) := by
  induction fields generalizing data with
  | nil => simp at hf
  | cons first fields ih =>
      obtain ⟨datum, rest, hd, hr, rfl⟩ := assemble_cons h
      rw [List.map_cons, List.nodup_cons] at distinct
      rcases List.mem_cons.mp hf with rfl | hmem
      · rw [get?_maybe_append_self (fun later => distinct.1 (names_assemble hr later)), hd]
      · have ne : first.name ≠ field.name :=
          fun same => distinct.1 (same ▸ List.mem_map_of_mem hmem)
        rw [get?_maybe_append_of_ne ne]
        exact ih distinct.2 hr hmem

theorem present?_of_positioned? {fields : List Field} {values : List Json} {data : Fields}
    (distinct : (fields.map Field.name).Nodup) (h : positioned? fields values = some data)
    {index : Nat} {field : Field} (hf : fields[index]? = some field)
    (given : field.presence ≠ .filled) :
    ∃ value, values[index]? = some value ∧
      field.present? value = some (Keyed.get? field.name data) := by
  induction fields generalizing index values data with
  | nil => simp at hf
  | cons first fields ih =>
      have names := distinct
      rw [List.map_cons, List.nodup_cons] at names
      cases values with
      | nil =>
          rw [positioned?] at h
          split at h
          · next filled =>
            obtain ⟨rest, others, rfl⟩ := Option.map_eq_some_iff.mp h
            cases index with
            | zero =>
                obtain rfl : first = field := by simpa using hf
                exact absurd filled given
            | succ index =>
                -- nothing stands at a place behind the last item
                obtain ⟨value, found, _⟩ := ih names.2 others hf
                simp at found
          · cases h
      | cons value values =>
          obtain ⟨datum, present, h⟩ := Option.bind_eq_some_iff.mp h
          obtain ⟨rest, others, h⟩ := Option.bind_eq_some_iff.mp h
          obtain rfl := Option.some.inj h
          cases index with
          | zero =>
              obtain rfl : first = field := by simpa using hf
              refine ⟨value, rfl, ?_⟩
              rw [get?_maybe_append_self fun later =>
                names.1 ((sources_positioned? others).names.subset later), present]
          | succ index =>
              have ne : first.name ≠ field.name := fun same =>
                names.1 (same ▸ List.mem_map_of_mem (List.mem_of_getElem? hf))
              rw [get?_maybe_append_of_ne ne]
              exact ih names.2 others hf

theorem Field.member?_isSome_of_foldlM {kind : RecordKind} {field : Field} {values : List Json}
    {before after : Option (Option Datum)}
    (h : values.foldlM (field.next? kind) before = some after) :
    ∀ value ∈ values, (field.member? value).isSome := by
  induction values generalizing before with
  | nil => simp
  | cons value values ih =>
      rw [List.foldlM_cons] at h
      obtain ⟨state, next, rest⟩ := Option.bind_eq_some_iff.mp h
      refine List.forall_mem_cons.mpr ⟨?_, ih rest⟩
      rw [next?] at next
      split at next
      · cases next
      · obtain ⟨datum, read, _⟩ := Option.map_eq_some_iff.mp next
        exact Option.isSome_of_eq_some read

theorem Field.present?_of_gathered? (field : Field) (required : field.presence = .required)
    {members : List (String × Json)} {datum : Option Datum}
    (h : field.gathered? .plain members = some datum) :
    ∃ value, occurrences field.name members = [value] ∧ field.present? value = some datum := by
  rw [gathered?, foldlM_plain] at h
  split at h
  · simp [settled?, required] at h
  · next value found =>
    refine ⟨value, found, ?_⟩
    simp only [member?, present?, required, Presence.admitsNull, Bool.false_eq_true, false_and,
      if_false] at h ⊢
    cases read : field.datum? value with
    | none => simp [read] at h
    | some d => simpa [read, settled?, required] using h
  · cases h

/-- The value of a field in what stands for a plain record: the first one under its name in an
object, the item at its place in a list. -/
def part? (name : String) (index : Nat) : Json → Option Json
  | .object members => (occurrences name members).head?
  | .array items => items[index]?
  | _ => none

namespace Shape

theorem part_of_readJson {title : String} {fields : List (String × Presence × Shape)}
    (distinct : (record .plain title fields).distinct = true) {value : Json} {data : Fields}
    (h : (record .plain title fields).readJson value = .ok (.record data)) (index : Nat)
    (name : String) {shape : Shape} (hf : fields[index]? = some (name, .required, shape)) :
    ∃ part datum, part? name index value = some part ∧ shape.readJson part = .ok datum ∧
      Keyed.get? name data = some datum := by
  have nodup := nodup_fieldsOf distinct
  have faithful := faithful_of_distinct distinct
  let field : Field := ⟨name, .required, shape, shape.read⟩
  have hfield : (fieldsOf fields)[index]? = some field := by
    rw [fieldsOf_eq_map, List.getElem?_map, hf]
    rfl
  rw [readJson_eq_ok_iff, Shape.read] at h
  obtain ⟨part, found, present⟩ : ∃ part, part? name index value = some part ∧
      field.present? part = some (Keyed.get? name data) := by
    cases value with
    | object members =>
        rw [readRecord_object nodup faithful (Node.standsFor_ofJson _)] at h
        obtain ⟨_, assembled, same⟩ := Option.map_eq_some_iff.mp h
        obtain rfl := Datum.record.inj same
        obtain ⟨part, once, present⟩ := field.present?_of_gathered? rfl
          (get?_assemble nodup assembled (List.mem_of_getElem? hfield))
        exact ⟨part, by rw [part?, once]; rfl, present⟩
    | array items =>
        rw [readRecord_array faithful (Node.standsFor_ofJson _)] at h
        obtain ⟨_, positioned, same⟩ := Option.map_eq_some_iff.mp h
        obtain rfl := Datum.record.inj same
        exact present?_of_positioned? nodup positioned hfield (by simp [field])
    | null | bool | number | text => simp [ofJson, readRecord, Except.toOption] at h
  simp only [field, Field.present?, Presence.admitsNull, Bool.false_eq_true, false_and,
    if_false] at present
  obtain ⟨datum, read, given⟩ := Option.map_eq_some_iff.mp present
  exact ⟨part, datum, found, readJson_eq_ok_iff.mpr read, given.symm⟩

theorem text_of_fixed {title : String} {fields : List (String × Presence × Shape)}
    (distinct : (record .object title fields).distinct = true) {members : List (String × Json)}
    {datum : Datum} (h : (record .object title fields).readJson (.object members) = .ok datum)
    {name text : String} {shape : Shape} (hf : (name, .fixed text, shape) ∈ fields) :
    ∀ value ∈ occurrences name members, value = .text text := by
  have nodup := nodup_fieldsOf distinct
  have faithful := faithful_of_distinct distinct
  let field : Field := ⟨name, .fixed text, shape, shape.read⟩
  have hfield : field ∈ fieldsOf fields := mem_fieldsOf_of_mem hf
  rw [readJson_eq_ok_iff, Shape.read, readRecord_object nodup faithful
    (Node.standsFor_ofJson _)] at h
  obtain ⟨data, assembled, _⟩ := Option.map_eq_some_iff.mp h
  obtain ⟨state, seen, _⟩ := Option.bind_eq_some_iff.mp (get?_assemble nodup assembled hfield)
  intro value hv
  have member := field.member?_isSome_of_foldlM seen value hv
  by_contra other
  simp [field, Field.member?, other] at member

section Objects

variable {name : String} {fields : List (String × Presence × Shape)}

theorem readJson_object_iff (names : (record .object name fields).ascending = true)
    {members : Keyed Json} (h : Keyed.Ascending members) {datum : Datum} :
    (record .object name fields).readJson (.object members) = .ok datum ↔
      ∃ data, datum = .record data ∧
        assemble (fun f => f.given? (Keyed.get? f.name members)) (fieldsOf fields) =
          some data := by
  have distinct := distinct_of_ascending _ names
  have gathered : assemble (Field.gathered? .object members) (fieldsOf fields) =
      assemble (fun f => f.given? (Keyed.get? f.name members)) (fieldsOf fields) :=
    assemble_congr fun f _ => Field.gathered?_of_nodup .object h.nodup f
  rw [readJson_eq_ok_iff, read, readRecord_object (nodup_fieldsOf distinct)
    (faithful_of_distinct distinct) (Node.standsFor_ofJson _), gathered, Option.map_eq_some_iff]
  exact exists_congr fun data => by rw [and_comm, eq_comm]

theorem object_of_readJson {value : Json} {datum : Datum}
    (h : (record .object name fields).readJson value = .ok datum) :
    ∃ members, value = .object members := by
  rw [readJson_eq_ok_iff, read] at h
  cases value with
  | object members => exact ⟨members, rfl⟩
  | null | bool | number | text | array => simp [ofJson, readRecord, Except.toOption] at h

variable {members : Keyed Json} {data : Fields} {presence : Presence} {shape : Shape}

theorem mem_fieldsOf {key : String} (h : fields.find? (·.1 == key) = some (key, presence, shape)) :
    (⟨key, presence, shape, shape.read⟩ : Field) ∈ fieldsOf fields :=
  mem_fieldsOf_of_mem (List.mem_of_find?_eq_some h)

/-- A field that may be null: nothing has been said of it, or its member has been read. -/
theorem member_of_readJson (key : String) (names : (record .object name fields).ascending = true)
    (ascending : Keyed.Ascending members)
    (h : (record .object name fields).readJson (.object members) = .ok (.record data))
    (hf : fields.find? (·.1 == key) = some (key, presence, shape))
    (nullable : presence.admitsNull = true) :
    (Absent key members ∧
      Keyed.get? key data = if presence = .defaulted then some shape.default else none) ∨
    ∃ value datum, Keyed.get? key members = some value ∧ value ≠ .null ∧
      shape.readJson value = .ok datum ∧ Keyed.get? key data = some datum := by
  obtain ⟨_, same, assembled⟩ := (readJson_object_iff names ascending).mp h
  obtain rfl := Datum.record.inj same
  have distinct := nodup_fieldsOf (distinct_of_ascending _ names)
  have given := get?_assemble distinct assembled (mem_fieldsOf hf)
  rcases Field.given?_of_admitsNull nullable given with ⟨absent, blank⟩ | ⟨v, d, found, rest⟩
  · exact .inl ⟨absent, blank⟩
  · exact .inr ⟨v, d, found, rest.1, readJson_eq_ok_iff.mpr rest.2.1, rest.2.2⟩

theorem readJson_text {value : Json} {datum : Datum} (h : text.readJson value = .ok datum) :
    ∃ s, value = .text s ∧ datum = .text s := by
  rw [readJson_eq_ok_iff, read] at h
  cases value with
  | text s => exact ⟨s, rfl, (Option.some.inj h).symm⟩
  | null | bool | number | array | object => simp [ofJson, readText, Except.toOption] at h

theorem text_of_readJson (key : String) (names : (record .object name fields).ascending = true)
    (ascending : Keyed.Ascending members)
    (h : (record .object name fields).readJson (.object members) = .ok (.record data))
    (hf : fields.find? (·.1 == key) = some (key, presence, text))
    (nullable : presence.admitsNull = true) :
    (Absent key members ∧ Fields.text? key data = if presence = .defaulted then some "" else none) ∨
      ∃ s, Keyed.get? key members = some (.text s) ∧ Fields.text? key data = some s := by
  rcases member_of_readJson key names ascending h hf nullable with
    ⟨absent, blank⟩ | ⟨value, datum, found, _, read, given⟩
  · refine .inl ⟨absent, ?_⟩
    rw [Fields.text?, Fields.part?, blank]
    by_cases defaulted : presence = .defaulted
    · rw [if_pos defaulted, if_pos defaulted]
      rfl
    · rw [if_neg defaulted, if_neg defaulted]
      rfl
  · obtain ⟨s, rfl, rfl⟩ := readJson_text read
    exact .inr ⟨s, found, congrArg (Option.bind · Datum.text?) given⟩

theorem readJson_list {item : Shape} (distinct : item.distinct = true) {value : Json}
    {datum : Datum} : (list item).readJson value = .ok datum ↔
      ∃ items data, value = .array items ∧ datum = .list data ∧
        List.Forall₂ (fun v d => item.readJson v = .ok d) items data := by
  have faithful := item.faithful_read distinct
  rw [readJson_eq_ok_iff, read]
  cases value with
  | array items =>
      rw [readList_array faithful (Node.standsFor_ofJson _), Option.map_eq_some_iff]
      simp only [itemData?, mapM_eq_some_iff, readJson_eq_ok_iff]
      constructor
      · rintro ⟨data, all, rfl⟩
        exact ⟨items, data, rfl, rfl, all⟩
      · rintro ⟨_, data, ⟨rfl⟩, rfl, all⟩
        exact ⟨data, all, rfl⟩
  | null | bool | number | text | object => simp [ofJson, readList, Except.toOption]

/-- To exchange a member is to exchange the field that is read from it. -/
theorem readJson_set (key : String) (names : (record .object name fields).ascending = true)
    (ascending : Keyed.Ascending members)
    (h : (record .object name fields).readJson (.object members) = .ok (.record data))
    (hf : fields.find? (·.1 == key) = some (key, presence, shape))
    (nullable : presence.admitsNull = true)
    {value : Json} {datum : Datum} (notNull : value ≠ .null)
    (read : shape.readJson value = .ok datum) :
    (record .object name fields).readJson (.object (Keyed.set key value members)) =
      .ok (.record (Keyed.set key datum data)) := by
  obtain ⟨_, same, assembled⟩ := (readJson_object_iff names ascending).mp h
  obtain rfl := Datum.record.inj same
  have ordered : ((fieldsOf fields).map Field.name).Pairwise (· < ·) := by
    rw [map_name_fieldsOf]
    exact pairwise_names names
  have distinct := nodup_fieldsOf (distinct_of_ascending _ names)
  let field : Field := ⟨key, presence, shape, shape.read⟩
  have mem : field ∈ fieldsOf fields := mem_fieldsOf hf
  let after := fun f : Field => f.given? (Keyed.get? f.name (Keyed.set key value members))
  have changed : ∀ f ∈ fieldsOf fields,
      after f = some (Keyed.get? f.name (Keyed.set key datum data)) := by
    intro f hf
    by_cases own : f.name = key
    · obtain rfl : field = f := List.inj_on_of_nodup_map distinct mem hf own.symm
      simp only [after]
      rw [show field.name = key from rfl, Keyed.get?_set_self, Keyed.get?_set_self]
      exact Field.given?_some nullable notNull (readJson_eq_ok_iff.mp read)
    · simp only [after]
      rw [Keyed.get?_set_of_ne own, Keyed.get?_set_of_ne own]
      exact get?_assemble distinct assembled hf
  obtain ⟨result, found⟩ : ∃ result, assemble after (fieldsOf fields) = some result :=
    Option.isSome_iff_exists.mp ((assemble_isSome_iff after _).mpr fun f hf => by
      rw [changed f hf]
      rfl)
  refine (readJson_object_iff names (ascending.set key value)).mpr ⟨result, ?_, found⟩
  congr 1
  refine Keyed.ext_get? ((ascending_assemble ordered assembled).set key datum)
    (ascending_assemble ordered found) fun other => ?_
  by_cases known : ∃ f ∈ fieldsOf fields, f.name = other
  · obtain ⟨f, hf, rfl⟩ := known
    exact Option.some.inj ((changed f hf).symm.trans (get?_assemble distinct found hf))
  · have unknown : ∀ f ∈ fieldsOf fields, f.name ≠ other := by simpa using known
    rw [Keyed.get?_set_of_ne (unknown field mem).symm,
      get?_assemble_of_forall_ne assembled unknown, get?_assemble_of_forall_ne found unknown]

end Objects

end Shape

end PodWebhook.Schema
