import PodWebhook.Json.Document
import PodWebhook.Schema.Mismatch
import PodWebhook.Schema.Shape

/-!
Reading a tree by a shape. A record is read member by member in the order of the text, and the first
mismatch ends the reading.
-/

namespace PodWebhook.Schema

open Json (Node Key Ending Fault)

def malformed (fault : Fault) : Mismatch := ⟨.malformed fault.cause, fault.pos⟩

/-- The mismatch of a tree that was expected to be something else. A bracket is reported where it
stands, any other token once it has been read. -/
def unexpected (expected : String) : Node → Mismatch
  | .null stop => ⟨.wrongType .null expected, stop⟩
  | .bool stop value => ⟨.wrongType (.bool value) expected, stop⟩
  | .number _ stop value => ⟨.wrongType (.number value) expected, stop⟩
  | .text _ stop value => ⟨.wrongType (.text value) expected, stop⟩
  | .array start _ _ _ => ⟨.wrongType .list expected, start⟩
  | .object start _ _ => ⟨.wrongType .map expected, start⟩
  | .unreadable _ fault => malformed fault
  | .broken _ reading _ => malformed reading

abbrev Result := Except Mismatch

def readBool : Node → Result Datum
  | .bool _ value => .ok (.bool value)
  | node => .error (unexpected Shape.bool.title node)

def readInt (kind : IntegerKind) : Node → Result Datum
  | .number _ stop (.int value) =>
    if kind.holds value then .ok (.int value)
    else .error ⟨.wrongValue (.number (.int value)) kind.name, stop⟩
  | node => .error (unexpected kind.name node)

def readText : Node → Result Datum
  | .text _ _ value => .ok (.text value)
  | node => .error (unexpected Shape.text.title node)

def readNumberOrText : Node → Result Datum
  | .text _ _ value => .ok (.text value)
  | .number _ _ value => .ok (.text value.plainText)
  | node => .error (unexpected Shape.numberOrText.title node)

def readIntOrText : Node → Result Datum
  | .text _ _ value => .ok (.text value)
  | .number _ stop (.int value) =>
    if IntegerKind.i32.holds value then .ok (.int value)
    else .error ⟨.wrongValue (.number (.int value)) "a 32-bit integer", stop⟩
  | node => .error (unexpected Shape.intOrText.title node)

def readInstant : Node → Result Datum
  | .text _ stop value =>
    match Timestamp.read value with
    | .ok t => .ok (.instant t)
    | .error error => .error ⟨.notInstant error.message, stop⟩
  | node => .error (unexpected Shape.instant.title node)

def readAny (node : Node) : Result Datum :=
  match node.toJson with
  | .ok value => .ok (.json value)
  | .error fault => .error (malformed fault)

def namesText (names : List String) : String :=
  let marked := names.map fun name => "\x60" ++ name ++ "\x60"
  match marked with
  | [a, b] => a ++ " or " ++ b
  | [a] => a
  | _ => "one of " ++ ", ".intercalate marked

def checkVariant (names : List String) (found : String) (stop : Nat) : Result Unit :=
  if found ∈ names then .ok () else .error ⟨.unknownVariant found (namesText names), stop⟩

/-- The mismatch of a tree that was expected to be a string or an object: what starts with another
byte is not read any further. -/
def neither : Node → Mismatch
  | .unreadable start fault =>
    if fault.cause = .numberOutOfRange then ⟨.malformed .expectedValue, start + 1⟩
    else malformed fault
  | .broken start reading _ =>
    if reading.cause ∈ [.invalidNumber, .expectedIdent, .numberOutOfRange] ∨
        (reading.cause = .endInValue ∧ reading.pos ≠ start) then
      ⟨.malformed .expectedValue, start + 1⟩
    else malformed reading
  | node => ⟨.malformed .expectedValue, node.start + 1⟩

def readVariantEnd (key : Key) (others : List (Key × Node)) (ending : Ending) : Result Unit :=
  match others, ending with
  | [], .closed _ => .ok ()
  | [], .broken reading _ _ =>
    if reading.cause = .endInObject then .error ⟨.malformed .endInObject, key.valueSettled⟩
    else .error ⟨.malformed .expectedValue, key.valueSettled⟩
  | _ :: _, _ => .error ⟨.malformed .expectedValue, key.valueSettled⟩

/-- A variant is written as its name, or as an object whose only member has that name and is null.
-/
def readVariant (names : List String) : Node → Result Datum
  | .text _ stop found => do
    checkVariant names found stop
    .ok (.text found)
  | .object _ ((key, value) :: others) ending =>
    match key.name with
    | .error fault => .error (malformed fault)
    | .ok found => do
      checkVariant names found key.stop
      match value with
      | .null _ =>
        readVariantEnd key others ending
        .ok (.text found)
      | value => .error (unexpected "unit" value)
  | .object _ [] (.closed stop) => .error ⟨.malformed .expectedValue, stop⟩
  | .object _ [] (.broken reading _ _) =>
    .error (if reading.cause = .endInObject then ⟨.malformed .endInValue, reading.pos⟩
      else malformed reading)
  | node => .error (neither node)

/-- The value of a field from the tree of a member: null may stand for none. -/
def readPresent (presence : Presence) (read : Node → Result Datum) (node : Node) :
    Result (Option Datum) :=
  match presence, node with
  | .optional, .null _ => .ok none
  | .defaulted, .null _ => .ok none
  | _, node => (read node).map some

def readItems (read : Node → Result Datum) : List Node → List Datum → Result (List Datum)
  | [], data => .ok data.reverse
  | item :: items, data =>
    match read item with
    | .ok datum => readItems read items (datum :: data)
    | .error mismatch => .error mismatch

def readEntries (read : Node → Result Datum) :
    List (Key × Node) → List (String × Datum) → Result (List (String × Datum))
  | [], data => .ok data.reverse
  | (key, node) :: members, data =>
    match key.name with
    | .error fault => .error (malformed fault)
    | .ok name =>
      match read node with
      | .ok datum => readEntries read members ((name, datum) :: data)
      | .error mismatch => .error mismatch

def readEnding (ending : Ending) : Result Nat :=
  match ending with
  | .closed stop => .ok stop
  | .broken reading _ _ => .error (malformed reading)

def readList (read : Node → Result Datum) : Node → Result Datum
  | .array _ _ items ending => do
    let data ← readItems read items []
    let _ ← readEnding ending
    .ok (.list data)
  | node => .error (unexpected "a sequence" node)

def readMap (read : Node → Result Datum) : Node → Result Datum
  | .object _ members ending => do
    let data ← readEntries read members []
    let _ ← readEnding ending
    .ok (.map (Keyed.ofList data))
  | node => .error (unexpected "a map" node)

structure Field where
  name : String
  presence : Presence
  shape : Shape
  read : Node → Result Datum

/-- The fields met so far, the latest first; a field that was null has no datum. -/
abbrev Seen := List (String × Option Datum)

def Field.readMember (field : Field) (key : Key) (node : Node) : Result (Option Datum) :=
  match field.presence with
  | .fixed value =>
    match readText node with
    | .ok (.text found) =>
      if found = value then .ok none
      else .error ⟨.wrongValue (.text found) value, key.valueSettled⟩
    | .ok _ => .ok none
    | .error mismatch => .error mismatch
  | presence => readPresent presence field.read node

def readMembers (kind : RecordKind) (fields : List Field) :
    List (Key × Node) → Seen → Result Seen
  | [], seen => .ok seen
  | (key, node) :: members, seen =>
    match key.name with
    | .error fault => .error (malformed fault)
    | .ok name =>
      match fields.find? fun field => field.name == name with
      | none =>
        match node.skip with
        | .ok () => readMembers kind fields members seen
        | .error fault => .error (malformed fault)
      | some field =>
        if kind = .plain ∧ (Keyed.get? name seen).isSome then
          .error ⟨.duplicateField name, key.settled⟩
        else
          match field.readMember key node with
          | .ok datum => readMembers kind fields members ((name, datum) :: seen)
          | .error mismatch => .error mismatch

def Field.settle (field : Field) (seen : Seen) (stop : Nat) : Result (Option Datum) :=
  match field.presence, Keyed.get? field.name seen with
  | .fixed value, _ => .ok (some (.text value))
  | .required, none => .error ⟨.missingField field.name, stop⟩
  | .optional, none => .ok none
  | _, none => .ok (some field.shape.default)
  | _, some (some datum) => .ok (some datum)
  | .defaulted, some none => .ok (some field.shape.default)
  | _, some none => .ok none

def settleFields (seen : Seen) (stop : Nat) : List Field → Result Fields
  | [] => .ok []
  | field :: fields => do
    let datum ← field.settle seen stop
    let rest ← settleFields seen stop fields
    match datum with
    | some datum => .ok ((field.name, datum) :: rest)
    | none => .ok rest

def listTitle (name : String) (count : Nat) : String :=
  "struct " ++ name ++ " with " ++ Nat.repr count ++ (if count = 1 then " element" else " elements")

def readPositions (title : String) (ending : Ending) :
    (index : Nat) → List Field → List Node → Result (Fields × List Node)
  | _, [], nodes => .ok ([], nodes)
  | index, field :: fields, node :: nodes => do
    let datum ← readPresent field.presence field.read node
    let (rest, left) ← readPositions title ending (index + 1) fields nodes
    match datum with
    | some datum => .ok ((field.name, datum) :: rest, left)
    | none => .ok (rest, left)
  | index, field :: fields, [] => do
    let stop ← readEnding ending
    if field.presence = .filled then
      let (rest, left) ← readPositions title ending (index + 1) fields []
      .ok ((field.name, field.shape.default) :: rest, left)
    else .error ⟨.tooFew index title, stop⟩

def readNoMore (count : Nat) (left : List Node) (ending : Ending) : Result Unit :=
  match left, ending with
  | node :: _, _ => .error ⟨.tooMany count, node.start + 1⟩
  | [], .closed _ => .ok ()
  | [], .broken _ _ closing => .error (malformed closing)

def readRecord (kind : RecordKind) (name : String) (fields : List Field) :
    Node → Result Datum
  | .object _ members ending => do
    let seen ← readMembers kind fields members []
    let stop ← readEnding ending
    let fields ← settleFields seen stop fields
    .ok (.record fields)
  | .array _ opened items ending =>
    match kind with
    | .object => .error ⟨.wrongType .list (Shape.recordTitle kind name), opened⟩
    | .plain => do
      let (data, left) ← readPositions (listTitle name fields.length) ending 0 fields items
      readNoMore items.length left ending
      .ok (.record data)
  | node => .error (unexpected (Shape.recordTitle kind name) node)

namespace Shape

mutual

def read : Shape → Node → Result Datum
  | .bool => readBool
  | .int kind => readInt kind
  | .text => readText
  | .numberOrText => readNumberOrText
  | .intOrText => readIntOrText
  | .instant => readInstant
  | .any => readAny
  | .variant names => readVariant names
  | .list item => readList (read item)
  | .map value => readMap (read value)
  | .record kind name fields => readRecord kind name (fieldsOf fields)

def fieldsOf : List (String × Presence × Shape) → List Field
  | [] => []
  | (name, presence, shape) :: fields => ⟨name, presence, shape, read shape⟩ :: fieldsOf fields

end

def readDocument (shape : Shape) (document : Json.Document) : Result Datum := do
  let datum ← shape.read document.root
  match document.trailing with
  | some fault => .error (malformed fault)
  | none => .ok datum

def readJson (shape : Shape) (value : Json) : Result Datum :=
  shape.read (Node.ofJson value)

end Shape

end PodWebhook.Schema
