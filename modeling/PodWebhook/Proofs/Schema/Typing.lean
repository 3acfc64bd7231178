import PodWebhook.Proofs.Schema.Fieldwise

/-!
Data of a shape. `Shape.Has` says which data a shape has, with a condition on the JSON that is kept
as it came. Whatever a shape reads it has (`Shape.has_read`), from any tree, also from one that can
be skipped in part only.
-/

namespace PodWebhook.Schema

open Json (Node Key)

theorem Datum.toJson_eq_null_iff {datum : Datum} : datum.toJson = .null ↔ datum = .json .null := by
  cases datum <;> simp [Datum.toJson]

mutual

/-- The data that a shape has, where `raw` is known of JSON that is kept as it came. -/
inductive Shape.Has (raw : Json → Prop) : Shape → Datum → Prop where
  | bool (value : Bool) : Shape.Has raw .bool (.bool value)
  | int {kind : IntegerKind} {value : Int} (h : kind.holds value = true) :
      Shape.Has raw (.int kind) (.int value)
  | text (value : String) : Shape.Has raw .text (.text value)
  | amount (value : String) : Shape.Has raw .numberOrText (.text value)
  | smallInt {value : Int} (h : IntegerKind.i32.holds value = true) :
      Shape.Has raw .intOrText (.int value)
  | smallText (value : String) : Shape.Has raw .intOrText (.text value)
  | any {value : Json} (h : raw value) : Shape.Has raw .any (.json value)
  | variant {names : List String} {name : String} (h : name ∈ names) :
      Shape.Has raw (.variant names) (.text name)
  | list {item : Shape} {data : List Datum} (h : ∀ datum ∈ data, Shape.Has raw item datum) :
      Shape.Has raw (.list item) (.list data)
  | map {value : Shape} {entries : Fields} (ascending : Keyed.Ascending entries)
      (h : ∀ entry ∈ entries, Shape.Has raw value entry.2) :
      Shape.Has raw (.map value) (.map entries)
  | record {kind : RecordKind} {name : String} {fields : List (String × Presence × Shape)}
      {data : Fields} (h : HasFields raw fields data) :
      Shape.Has raw (.record kind name fields) (.record data)

/-- What a field may come to. A field that is optional is left out where it would be null. -/
inductive HasField (raw : Json → Prop) : Presence → Shape → Option Datum → Prop where
  | required {shape : Shape} {datum : Datum} (h : Shape.Has raw shape datum) :
      HasField raw .required shape (some datum)
  | filled {shape : Shape} {datum : Datum} (h : Shape.Has raw shape datum) :
      HasField raw .filled shape (some datum)
  | optional {shape : Shape} {datum : Datum} (h : Shape.Has raw shape datum)
      (notNull : datum ≠ .json .null) : HasField raw .optional shape (some datum)
  | absent {shape : Shape} : HasField raw .optional shape none

inductive HasFields (raw : Json → Prop) :
    List (String × Presence × Shape) → Fields → Prop where
  | nil : HasFields raw [] []
  | cons {name : String} {presence : Presence} {shape : Shape} {datum : Option Datum}
      {fields : List (String × Presence × Shape)} {rest : Fields}
      (head : HasField raw presence shape datum) (tail : HasFields raw fields rest) :
      HasFields raw ((name, presence, shape) :: fields) (Fields.maybe name datum ++ rest)

end

section

variable {raw : Json → Prop} {name : String} {presence : Presence} {shape : Shape}

theorem HasFields.present {datum : Datum} {fields : List (String × Presence × Shape)}
    {rest : Fields} (head : HasField raw presence shape (some datum))
    (tail : HasFields raw fields rest) :
    HasFields raw ((name, presence, shape) :: fields) ((name, datum) :: rest) :=
  .cons head tail

theorem HasFields.last {datum : Option Datum} (head : HasField raw presence shape datum) :
    HasFields raw [(name, presence, shape)] (Fields.maybe name datum) := by
  simpa using HasFields.cons head .nil

theorem HasField.ofOption {α : Type} {write : α → Datum} (value : Option α)
    (has : ∀ a, shape.Has raw (write a)) (notNull : ∀ a, write a ≠ .json .null) :
    HasField raw .optional shape (value.map write) := by
  cases value with
  | none => exact .absent
  | some a => exact .optional (has a) (notNull a)

end

namespace Shape

mutual

/-- What the shape reads can be written and read again. There are no instants in it, and a variant
has a name. -/
def reversible : Shape → Bool
  | .instant => false
  | .variant names => !names.isEmpty
  | .list item => reversible item
  | .map value => reversible value
  | .record _ _ fields => fieldsReversible fields
  | _ => true

def fieldsReversible : List (String × Presence × Shape) → Bool
  | [] => true
  | (_, presence, shape) :: fields =>
    presence.reversible && reversible shape && fieldsReversible fields

end

theorem reversible_of_mem {fields : List (String × Presence × Shape)}
    (h : fieldsReversible fields = true) :
    ∀ field ∈ fields, field.2.1.reversible = true ∧ field.2.2.reversible = true := by
  induction fields with
  | nil => simp
  | cons first fields ih =>
      rw [fieldsReversible, Bool.and_eq_true, Bool.and_eq_true] at h
      exact List.forall_mem_cons.mpr ⟨h.1, ih h.2⟩

variable {raw : Json → Prop}

mutual

theorem has_default (null : raw .null) :
    (shape : Shape) → shape.reversible = true → shape.Has raw shape.default
  | .bool, _ => .bool false
  | .int .i32, _ | .int .i64, _ | .int .u16, _ | .int .u32, _ => .int rfl
  | .text, _ => .text ""
  | .numberOrText, _ => .amount ""
  | .intOrText, _ => .smallInt rfl
  | .any, _ => .any null
  | .variant (_ :: _), _ => .variant List.mem_cons_self
  | .list _, _ => .list (by simp)
  | .map _, _ => .map .nil (by simp)
  | .record _ _ fields, h => .record (hasFields_default null fields h)

theorem hasFields_default (null : raw .null) : (fields : List (String × Presence × Shape)) →
    fieldsReversible fields = true → HasFields raw fields (defaultFields fields)
  | [], _ => .nil
  | (_, presence, shape) :: fields, h => by
      rw [fieldsReversible, Bool.and_eq_true, Bool.and_eq_true] at h
      have rest := hasFields_default null fields h.2
      cases presence with
      | optional => exact .cons .absent rest
      | required => exact .cons (.required (has_default null shape h.1.2)) rest
      | filled => exact .cons (.filled (has_default null shape h.1.2)) rest
      | defaulted => cases h.1.1
      | fixed text => cases h.1.1

end

end Shape

def Gives (raw : Json → Prop) (shape : Shape) (read : Node → Result Datum) : Prop :=
  ∀ (node : Node) (datum : Datum), read node = .ok datum → shape.Has raw datum

section Readers

variable {raw : Json → Prop}

theorem gives_readBool : Gives raw .bool readBool := by
  intro node datum h
  rw [readBool.eq_def] at h
  split at h <;> cases h
  exact .bool _

theorem gives_readInt (kind : IntegerKind) : Gives raw (.int kind) (readInt kind) := by
  intro node datum h
  rw [readInt.eq_def] at h
  split at h
  · split at h <;> cases h
    next holds => exact .int holds
  · cases h

theorem gives_readText : Gives raw .text readText := by
  intro node datum h
  rw [readText.eq_def] at h
  split at h <;> cases h
  exact .text _

theorem gives_readNumberOrText : Gives raw .numberOrText readNumberOrText := by
  intro node datum h
  rw [readNumberOrText.eq_def] at h
  split at h <;> cases h <;> exact .amount _

theorem gives_readIntOrText : Gives raw .intOrText readIntOrText := by
  intro node datum h
  rw [readIntOrText.eq_def] at h
  split at h
  · cases h
    exact .smallText _
  · split at h <;> cases h
    next holds => exact .smallInt holds
  · cases h

theorem gives_readAny
    (known : ∀ (node : Node) (value : Json), node.toJson = .ok value → raw value) :
    Gives raw .any readAny := by
  intro node datum h
  rw [readAny] at h
  split at h <;> cases h
  next value read => exact .any (known node value read)

theorem mem_of_checkVariant {names : List String} {found : String} {stop : Nat}
    (h : checkVariant names found stop = .ok ()) : found ∈ names := by
  rw [checkVariant] at h
  split at h
  · assumption
  · cases h

theorem gives_readVariant (names : List String) :
    Gives raw (.variant names) (readVariant names) := by
  intro node datum h
  rw [readVariant.eq_def] at h
  split at h
  · obtain ⟨_, known, h⟩ := bind_eq_ok_iff.mp h
    cases h
    exact .variant (mem_of_checkVariant known)
  · split at h
    · cases h
    · obtain ⟨_, known, h⟩ := bind_eq_ok_iff.mp h
      split at h
      · obtain ⟨_, _, h⟩ := bind_eq_ok_iff.mp h
        cases h
        exact .variant (mem_of_checkVariant known)
      · cases h
  all_goals cases h

theorem gives_readItems {item : Shape} {read : Node → Result Datum} (gives : Gives raw item read)
    (nodes : List Node) {done data : List Datum} (known : ∀ datum ∈ done, item.Has raw datum)
    (h : readItems read nodes done = .ok data) : ∀ datum ∈ data, item.Has raw datum := by
  induction nodes generalizing done with
  | nil =>
      cases h
      simpa using known
  | cons node nodes ih =>
      rw [readItems] at h
      split at h
      · next datum found => exact ih (List.forall_mem_cons.mpr ⟨gives node datum found, known⟩) h
      · cases h

theorem gives_readList {item : Shape} {read : Node → Result Datum} (gives : Gives raw item read) :
    Gives raw (.list item) (readList read) := by
  intro node datum h
  rw [readList.eq_def] at h
  split at h
  · obtain ⟨data, found, h⟩ := bind_eq_ok_iff.mp h
    obtain ⟨_, _, h⟩ := bind_eq_ok_iff.mp h
    cases h
    exact .list (gives_readItems gives _ (by simp) found)
  · cases h

theorem gives_readEntries {value : Shape} {read : Node → Result Datum}
    (gives : Gives raw value read) (nodes : List (Key × Node)) {done data : Fields}
    (known : ∀ entry ∈ done, value.Has raw entry.2)
    (h : readEntries read nodes done = .ok data) : ∀ entry ∈ data, value.Has raw entry.2 := by
  induction nodes generalizing done with
  | nil =>
      cases h
      simpa using known
  | cons node nodes ih =>
      obtain ⟨key, node⟩ := node
      rw [readEntries] at h
      split at h
      · cases h
      · split at h
        · next datum found => exact ih (List.forall_mem_cons.mpr ⟨gives node datum found, known⟩) h
        · cases h

theorem gives_readMap {value : Shape} {read : Node → Result Datum} (gives : Gives raw value read) :
    Gives raw (.map value) (readMap read) := by
  intro node datum h
  rw [readMap.eq_def] at h
  split at h
  · obtain ⟨data, found, h⟩ := bind_eq_ok_iff.mp h
    obtain ⟨_, _, h⟩ := bind_eq_ok_iff.mp h
    cases h
    refine .map (Keyed.ascending_ofList data) fun entry he => ?_
    have kept := List.mem_mergeSort.mp (Keyed.mem_of_mem_keepLast he)
    exact gives_readEntries gives _ (by simp) found entry kept
  · cases h

structure Field.Sound (raw : Json → Prop) (field : Field) : Prop where
  reversible : field.presence.reversible = true
  gives : Gives raw field.shape field.read
  default : field.shape.Has raw field.shape.default
  null : ∀ (node : Node), field.read node = .ok (.json .null) → ∃ stop, node = .null stop

theorem hasField_readPresent {field : Field} (sound : field.Sound raw) {node : Node}
    {datum : Option Datum} (h : readPresent field.presence field.read node = .ok datum) :
    HasField raw field.presence field.shape datum := by
  obtain ⟨name, presence, shape, read⟩ := field
  cases presence with
  | required =>
      obtain ⟨d, found, rfl⟩ := map_eq_ok_iff.mp h
      exact .required (sound.gives node d found)
  | filled =>
      obtain ⟨d, found, rfl⟩ := map_eq_ok_iff.mp h
      exact .filled (sound.gives node d found)
  | optional =>
      cases node with
      | null stop =>
          cases h
          exact .absent
      | bool | number | text | array | object | unreadable | broken =>
          obtain ⟨d, found, rfl⟩ := map_eq_ok_iff.mp h
          refine .optional (sound.gives _ d found) ?_
          rintro rfl
          obtain ⟨stop, null⟩ := sound.null _ found
          cases null
  | defaulted => cases sound.reversible
  | fixed text => cases sound.reversible

theorem hasField_missing {field : Field} (sound : field.Sound raw) {datum : Option Datum}
    (h : field.settled? none = some datum) : HasField raw field.presence field.shape datum := by
  obtain ⟨name, presence, shape, read⟩ := field
  cases presence with
  | required => cases h
  | optional =>
      cases h
      exact .absent
  | filled =>
      cases h
      exact .filled sound.default
  | defaulted => cases sound.reversible
  | fixed text => cases sound.reversible

theorem hasFields_iff_assembled (fields : List (String × Presence × Shape)) (data : Fields) :
    HasFields raw fields data ↔
      Assembled (fun f => HasField raw f.presence f.shape) (Shape.fieldsOf fields) data := by
  induction fields generalizing data with
  | nil =>
      constructor <;> (intro h; cases h; exact .nil)
  | cons field fields ih =>
      constructor <;> intro h <;> cases h with
      | cons head tail => exact .cons head (by simpa only [ih] using tail)

theorem gives_readRecord {kind : RecordKind} {name : String}
    {fields : List (String × Presence × Shape)}
    (distinct : ((Shape.fieldsOf fields).map Field.name).Nodup)
    (sound : ∀ f ∈ Shape.fieldsOf fields, f.Sound raw) :
    Gives raw (.record kind name fields) (readRecord kind name (Shape.fieldsOf fields)) := by
  intro node datum h
  obtain ⟨data, rfl, assembled⟩ := assembled_readRecord distinct (fun f hf =>
    ⟨(sound f hf).reversible, fun _ _ _ read => hasField_readPresent (sound f hf) read,
      fun _ missing => hasField_missing (sound f hf) missing⟩) h
  exact .record ((hasFields_iff_assembled fields data).mpr assembled)

end Readers

namespace Shape

variable {raw : Json → Prop}

theorem Has.eq_any {shape : Shape} (h : shape.Has raw (.json .null)) : shape = .any := by
  cases h
  rfl

theorem null_of_readAny {node : Node} (h : readAny node = .ok (.json .null)) :
    ∃ stop, node = .null stop := by
  rw [readAny] at h
  split at h <;> cases h
  next read =>
  cases node with
  | null stop => exact ⟨stop, rfl⟩
  | bool | number | text | unreadable | broken => cases read
  | array | object =>
      rw [Node.toJson] at read
      split at read
      · cases read
      · split at read <;> cases read

mutual

theorem has_read
    (known : ∀ (node : Node) (value : Json), node.toJson = .ok value → raw value) :
    (shape : Shape) → shape.reversible = true → shape.distinct = true → Gives raw shape shape.read
  | .bool, _, _ => gives_readBool
  | .int kind, _, _ => gives_readInt kind
  | .text, _, _ => gives_readText
  | .numberOrText, _, _ => gives_readNumberOrText
  | .intOrText, _, _ => gives_readIntOrText
  | .any, _, _ => gives_readAny known
  | .variant names, _, _ => gives_readVariant names
  | .list item, hr, hd => gives_readList (has_read known item hr hd)
  | .map value, hr, hd => gives_readMap (has_read known value hr hd)
  | .record kind name fields, hr, hd => by
      have names := nodup_fieldsOf hd
      rw [distinct, namesPass, Bool.and_eq_true] at hd
      exact gives_readRecord names (sound_fieldsOf known fields hr hd.2)

theorem sound_fieldsOf
    (known : ∀ (node : Node) (value : Json), node.toJson = .ok value → raw value) :
    (fields : List (String × Presence × Shape)) → fieldsReversible fields = true →
      fieldsPass (fun names => decide names.Nodup) fields = true →
      ∀ f ∈ fieldsOf fields, f.Sound raw
  | [], _, _ => by simp [fieldsOf]
  | (name, presence, shape) :: fields, hr, hd => by
      rw [fieldsReversible, Bool.and_eq_true, Bool.and_eq_true] at hr
      rw [fieldsPass, Bool.and_eq_true] at hd
      rw [fieldsOf, List.forall_mem_cons]
      have gives := has_read known shape hr.1.2 hd.1
      refine ⟨⟨hr.1.1, gives, has_default (known (.null 0) .null rfl) shape hr.1.2, ?_⟩,
        sound_fieldsOf known fields hr.2 hd.2⟩
      intro node null
      obtain rfl := (gives node _ null).eq_any
      exact null_of_readAny null

end

theorem parts_of_read {kind : RecordKind} {name : String}
    {fields : List (String × Presence × Shape)}
    (reversible : (record kind name fields).reversible = true)
    (distinct : (record kind name fields).distinct = true) {node : Node} {datum : Datum}
    (h : (record kind name fields).read node = .ok datum) :
    ∃ data, datum = .record data ∧ ∀ field ∈ fields, field.2.1 ≠ .filled →
      ∀ d, Keyed.get? field.1 data = some d → ∃ part ∈ node.parts, field.2.2.read part = .ok d := by
  have each : ∀ f ∈ fieldsOf fields, f.presence.reversible = true := by
    rw [fieldsOf_eq_map, List.forall_mem_map]
    exact fun field hf => (reversible_of_mem reversible field hf).1
  obtain ⟨data, rfl, parts⟩ := parts_of_readRecord (nodup_fieldsOf distinct) each h
  refine ⟨data, rfl, fun field hf given d found => ?_⟩
  obtain ⟨name, presence, shape⟩ := field
  have own := mem_fieldsOf_of_mem hf
  have source := parts _ own
  have plain := each _ own
  simp only at found given source plain
  rw [found] at source
  rcases source with missing | ⟨part, hp, read⟩
  · cases presence with
    | filled => exact absurd rfl given
    | required | optional => cases missing
    | defaulted | fixed => cases plain
  · refine ⟨part, hp, ?_⟩
    rw [readPresent.eq_def] at read
    split at read
    · cases read
    · cases read
    · obtain ⟨_, read, same⟩ := map_eq_ok_iff.mp read
      rwa [Option.some.inj same] at read

mutual

def typed : Shape → Bool
  | .any => false
  | .list item => typed item
  | .map value => typed value
  | .record _ _ fields => fieldsTyped fields
  | _ => true

def fieldsTyped : List (String × Presence × Shape) → Bool
  | [] => true
  | (_, _, shape) :: fields => typed shape && fieldsTyped fields

end

mutual

theorem has_of_typed {other : Json → Prop} : (shape : Shape) → shape.typed = true →
    ∀ {datum : Datum}, shape.Has raw datum → shape.Has other datum
  | .bool, _, _, h => by cases h; exact .bool _
  | .int _, _, _, h => by cases h with | int holds => exact .int holds
  | .text, _, _, h => by cases h; exact .text _
  | .numberOrText, _, _, h => by cases h; exact .amount _
  | .intOrText, _, _, h => by
      cases h with
      | smallInt holds => exact .smallInt holds
      | smallText => exact .smallText _
  | .instant, _, _, h => nomatch h
  | .variant _, _, _, h => by cases h with | variant known => exact .variant known
  | .list item, ht, _, h => by
      cases h with
      | list has => exact .list fun datum hd => has_of_typed item ht (has datum hd)
  | .map value, ht, _, h => by
      cases h with
      | map ascending has =>
          exact .map ascending fun entry he => has_of_typed value ht (has entry he)
  | .record _ _ fields, ht, _, h => by
      cases h with
      | record has => exact .record (hasFields_of_typed fields ht has)

theorem hasFields_of_typed {other : Json → Prop} :
    (fields : List (String × Presence × Shape)) → fieldsTyped fields = true →
      ∀ {data : Fields}, HasFields raw fields data → HasFields other fields data
  | [], _, _, h => by cases h; exact .nil
  | (_, _, shape) :: fields, ht, _, h => by
      rw [fieldsTyped, Bool.and_eq_true] at ht
      cases h with
      | cons head tail =>
          refine .cons ?_ (hasFields_of_typed fields ht.2 tail)
          cases head with
          | required has => exact .required (has_of_typed shape ht.1 has)
          | filled has => exact .filled (has_of_typed shape ht.1 has)
          | optional has notNull => exact .optional (has_of_typed shape ht.1 has) notNull
          | absent => exact .absent

end

end Shape

end PodWebhook.Schema
