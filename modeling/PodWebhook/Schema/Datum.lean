import PodWebhook.Json.Basic
import PodWebhook.Time.Timestamp

/-!
Typed data: what is left of a JSON value once it has been read by a shape. A record has the fields
that are present, in the order of its shape; a map has its entries in the order of their keys.
Writing may fail, at a key that has no text; the keys of typed data are texts (`Datum.write_eq`).
-/

namespace PodWebhook.Schema

inductive Datum where
  | bool (value : Bool)
  | int (value : Int)
  | text (value : String)
  | instant (value : Timestamp)
  | json (value : Json)
  | list (items : List Datum)
  | map (entries : List (String × Datum))
  | record (fields : List (String × Datum))
  deriving Inhabited, Repr

namespace Datum

@[simp] def text? : Datum → Option String
  | .text value => some value
  | _ => none

@[simp] def bool? : Datum → Option Bool
  | .bool value => some value
  | _ => none

@[simp] def int? : Datum → Option Int
  | .int value => some value
  | _ => none

@[simp] def json? : Datum → Option Json
  | .json value => some value
  | _ => none

@[simp] def items? : Datum → Option (List Datum)
  | .list items => some items
  | _ => none

@[simp] def fields? : Datum → Option (List (String × Datum))
  | .record fields => some fields
  | _ => none

end Datum

/-- The fields of a record that are present, in the order of its shape. -/
abbrev Fields := Keyed Datum

namespace Fields

variable (name : String) (fields : Fields)

@[simp] def part? {α : Type} (read : Datum → Option α) : Option α :=
  (Keyed.get? name fields).bind read

def text? : Option String := part? name fields Datum.text?

def text : String := (text? name fields).getD ""

def bool? : Option Bool := part? name fields Datum.bool?

def int? : Option Int := part? name fields Datum.int?

def json? : Option Json := part? name fields Datum.json?

/-- The items of a list; none if there is no list. -/
def list : List Datum := (part? name fields Datum.items?).getD []

def record? : Option Fields := part? name fields Datum.fields?

def maybe (datum : Option Datum) : Fields :=
  match datum with
  | some datum => [(name, datum)]
  | none => []

variable {name fields}

theorem part?_eq_some_iff {α : Type} {read : Datum → Option α} {write : α → Datum}
    (inverse : ∀ datum a, read datum = some a ↔ datum = write a) {a : α} :
    part? name fields read = some a ↔ Keyed.get? name fields = some (write a) := by
  rw [part?, Option.bind_eq_some_iff]
  simp only [inverse, exists_eq_right]

theorem record?_eq_some_iff {inner : Fields} :
    record? name fields = some inner ↔ Keyed.get? name fields = some (.record inner) :=
  part?_eq_some_iff fun datum _ => by cases datum <;> simp

theorem json?_eq_some_iff {value : Json} :
    json? name fields = some value ↔ Keyed.get? name fields = some (.json value) :=
  part?_eq_some_iff fun datum _ => by cases datum <;> simp

theorem items?_eq_some_iff {items : List Datum} :
    part? name fields Datum.items? = some items ↔ Keyed.get? name fields = some (.list items) :=
  part?_eq_some_iff fun datum _ => by cases datum <;> simp

end Fields

namespace Datum

mutual

/-- How a datum is written; a record's members keep their order. -/
def toJson : Datum → Json
  | .bool value => .bool value
  | .int value => .number (.int value)
  | .text value => .text value
  | .instant value => .text value.toText
  | .json value => value
  | .list items => .array (itemsToJson items [])
  | .map entries => .object (entriesToJson entries [])
  | .record fields => .object (entriesToJson fields [])

def itemsToJson : List Datum → List Json → List Json
  | [], values => values.reverse
  | item :: items, values => itemsToJson items (toJson item :: values)

def entriesToJson : List (String × Datum) → List (String × Json) → List (String × Json)
  | [], values => values.reverse
  | (name, datum) :: entries, values => entriesToJson entries ((name, toJson datum) :: values)

end

def keyText : Json → Except String String
  | .text s => .ok s
  | .bool value => .ok (if value then "true" else "false")
  | .number n => .ok n.toText
  | .null | .array _ | .object _ => .error "key must be a string"

mutual

def write : Datum → Except String Json
  | .bool value => .ok (.bool value)
  | .int value => .ok (.number (.int value))
  | .text value => .ok (.text value)
  | .instant value => .ok (.text value.toText)
  | .json value => .ok value
  | .list items => (writeItems items []).map .array
  | .map entries => (writeEntries entries []).map .object
  | .record fields => (writeEntries fields []).map .object

def writeItems : List Datum → List Json → Except String (List Json)
  | [], values => .ok values.reverse
  | item :: items, values =>
    match write item with
    | .ok value => writeItems items (value :: values)
    | .error reason => .error reason

def writeEntries :
    List (String × Datum) → List (String × Json) → Except String (List (String × Json))
  | [], values => .ok values.reverse
  | (name, datum) :: entries, values =>
    match keyText (.text name), write datum with
    | .ok key, .ok value => writeEntries entries ((key, value) :: values)
    | .error reason, _ => .error reason
    | _, .error reason => .error reason

end

mutual

theorem write_eq : (datum : Datum) → datum.write = .ok datum.toJson
  | .bool _ | .int _ | .text _ | .instant _ | .json _ => rfl
  | .list items => by rw [write, writeItems_eq items, toJson]; rfl
  | .map entries => by rw [write, writeEntries_eq entries, toJson]; rfl
  | .record fields => by rw [write, writeEntries_eq fields, toJson]; rfl

theorem writeItems_eq : (items : List Datum) → (values : List Json) →
    writeItems items values = .ok (itemsToJson items values)
  | [], _ => rfl
  | item :: items, values => by
      rw [writeItems, write_eq item, itemsToJson]
      exact writeItems_eq items _

theorem writeEntries_eq : (entries : List (String × Datum)) → (values : List (String × Json)) →
    writeEntries entries values = .ok (entriesToJson entries values)
  | [], _ => rfl
  | (name, datum) :: entries, values => by
      rw [writeEntries, keyText, write_eq datum, entriesToJson]
      exact writeEntries_eq entries _

end

end Datum

end PodWebhook.Schema
