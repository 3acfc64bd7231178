import PodWebhook.Schema.Datum

/-!
Shapes of JSON values. There are two kinds of records. A plain record is strict about its members:
none may come twice, and a list of all its fields in order stands for it, too. An object record
takes the last of repeated members, and only an object will do.
-/

namespace PodWebhook.Schema

inductive Presence where
  | required
  /-- It may be left out or null, and is absent then. -/
  | optional
  /-- Left out it has its default value, null is no value. -/
  | filled
  /-- Left out or null it has its default value. -/
  | defaulted
  /-- It is this text, whether it is there or not. -/
  | fixed (value : String)
  deriving DecidableEq, Repr

inductive IntegerKind where
  | i32
  | i64
  | u16
  | u32
  deriving DecidableEq, Repr

namespace IntegerKind

def name : IntegerKind → String
  | i32 => "i32"
  | i64 => "i64"
  | u16 => "u16"
  | u32 => "u32"

def holds : IntegerKind → Int → Bool
  | i32, n => -0x80000000 ≤ n && n < 0x80000000
  | i64, n => -0x8000000000000000 ≤ n && n < 0x8000000000000000
  | u16, n => 0 ≤ n && n < 0x10000
  | u32, n => 0 ≤ n && n < 0x100000000

end IntegerKind

inductive RecordKind where
  | plain
  | object
  deriving DecidableEq, Repr

inductive Shape where
  | bool
  | int (kind : IntegerKind)
  | text
  /-- Text, or a number for which its text is taken. -/
  | numberOrText
  | intOrText
  | instant
  | any
  | variant (names : List String)
  | list (item : Shape)
  | map (value : Shape)
  | record (kind : RecordKind) (name : String) (fields : List (String × Presence × Shape))
  deriving Inhabited, Repr

namespace Shape

def recordTitle (kind : RecordKind) (name : String) : String :=
  match kind with
  | .plain => "struct " ++ name
  | .object => name

def title : Shape → String
  | bool => "a boolean"
  | int kind => kind.name
  | text => "a string"
  | numberOrText => "Quantity"
  | intOrText => "IntOrString"
  | instant => "a timestamp string"
  | any => "any valid JSON value"
  | variant _ => "variant identifier"
  | list _ => "a sequence"
  | map _ => "a map"
  | record kind name _ => recordTitle kind name

mutual

def default : Shape → Datum
  | bool => .bool false
  | int _ => .int 0
  | intOrText => .int 0
  | instant => .instant ⟨0, 0⟩
  | any => .json .null
  | list _ => .list []
  | map _ => .map []
  | record _ _ fields => .record (defaultFields fields)
  | text => .text ""
  | numberOrText => .text ""
  | variant names => .text (names.headD "")

def defaultFields : List (String × Presence × Shape) → Fields
  | [] => []
  | (name, presence, shape) :: fields =>
    match presence with
    | .optional => defaultFields fields
    | .fixed value => (name, .text value) :: defaultFields fields
    | _ => (name, default shape) :: defaultFields fields

end

end Shape

end PodWebhook.Schema
