import PodWebhook.Json.Basic
import PodWebhook.Json.Fault

/-!
JSON text as a tree with offsets. A text that breaks off or goes wrong still has a tree: the fault
stands in it at the place where it was found, so that whoever reads the tree in the order of the
text meets either the fault or an earlier reason to stop. A fault can depend on why the place is
visited, for reading a value is stricter than skipping it.

`Node.toJson` reads the value a tree stands for, `Node.ofJson` is the tree of a value.
-/

namespace PodWebhook.Json

inductive Ending where
  | closed (stop : Nat)
  /-- The fault met when reading on, when skipping on, and when no more items are wanted. -/
  | broken (reading skipping closing : Fault)

structure Key where
  name : Except Fault String
  /-- The fault that keeps the key from being skipped, too. -/
  unskippable : Option Fault
  stop : Nat
  /-- The offset past the blanks after the key, and past a closing brace that follows them. -/
  settled : Nat
  valueSettled : Nat

inductive Node where
  | null (stop : Nat)
  | bool (stop : Nat) (value : Bool)
  | number (start stop : Nat) (value : Number)
  | text (start stop : Nat) (value : String)
  /-- `opened` is the offset at which a list is left that nothing is read from. -/
  | array (start opened : Nat) (items : List Node) (ending : Ending)
  | object (start : Nat) (members : List (Key × Node)) (ending : Ending)
  | unreadable (start : Nat) (fault : Fault)
  | broken (start : Nat) (reading skipping : Fault)
  deriving Inhabited

namespace Ending

def read : Ending → Except Fault Unit
  | closed _ => .ok ()
  | broken reading _ _ => .error reading

def skip : Ending → Except Fault Unit
  | closed _ => .ok ()
  | broken _ skipping _ => .error skipping

end Ending

namespace Node

/-- The offset of the first byte; words have it four or five before their end. -/
def start : Node → Nat
  | null stop => stop - 4
  | bool stop value => stop - (if value then 4 else 5)
  | number start _ _ => start
  | text start _ _ => start
  | array start _ _ _ => start
  | object start _ _ => start
  | unreadable start _ => start
  | broken start _ _ => start

mutual

def skip : Node → Except Fault Unit
  | .array _ _ items ending =>
    match skipItems items with
    | .ok () => ending.skip
    | .error fault => .error fault
  | .object _ members ending =>
    match skipMembers members with
    | .ok () => ending.skip
    | .error fault => .error fault
  | .broken _ _ skipping => .error skipping
  | _ => .ok ()

def skipItems : List Node → Except Fault Unit
  | [] => .ok ()
  | item :: items =>
    match skip item with
    | .ok () => skipItems items
    | .error fault => .error fault

def skipMembers : List (Key × Node) → Except Fault Unit
  | [] => .ok ()
  | (key, value) :: members =>
    match key.unskippable with
    | some fault => .error fault
    | none =>
      match skip value with
      | .ok () => skipMembers members
      | .error fault => .error fault

end

mutual

def toJson : Node → Except Fault Json
  | .null _ => .ok .null
  | .bool _ value => .ok (.bool value)
  | .number _ _ value => .ok (.number value)
  | .text _ _ value => .ok (.text value)
  | .array _ _ items ending =>
    match itemsToJson items [] with
    | .error fault => .error fault
    | .ok values =>
      match ending.read with
      | .ok () => .ok (.array values)
      | .error fault => .error fault
  | .object _ members ending =>
    match membersToJson members [] with
    | .error fault => .error fault
    | .ok members =>
      match ending.read with
      | .ok () => .ok (Json.ofMembers members)
      | .error fault => .error fault
  | .unreadable _ fault => .error fault
  | .broken _ reading _ => .error reading

def itemsToJson : List Node → List Json → Except Fault (List Json)
  | [], values => .ok values.reverse
  | item :: items, values =>
    match toJson item with
    | .ok value => itemsToJson items (value :: values)
    | .error fault => .error fault

def membersToJson : List (Key × Node) → List (String × Json) →
    Except Fault (List (String × Json))
  | [], values => .ok values.reverse
  | (key, node) :: members, values =>
    match key.name with
    | .error fault => .error fault
    | .ok name =>
      match toJson node with
      | .ok value => membersToJson members ((name, value) :: values)
      | .error fault => .error fault

end

def keyOf (name : String) : Key := ⟨.ok name, none, 0, 0, 0⟩

mutual

def ofJson : Json → Node
  | .null => .null 0
  | .bool value => .bool 0 value
  | .number value => .number 0 0 value
  | .text value => .text 0 0 value
  | .array items => .array 0 0 (itemsOfJson items []) (.closed 0)
  | .object members => .object 0 (membersOfJson members []) (.closed 0)

def itemsOfJson : List Json → List Node → List Node
  | [], nodes => nodes.reverse
  | item :: items, nodes => itemsOfJson items (ofJson item :: nodes)

def membersOfJson : List (String × Json) → List (Key × Node) → List (Key × Node)
  | [], nodes => nodes.reverse
  | (name, value) :: members, nodes => membersOfJson members ((keyOf name, ofJson value) :: nodes)

end

end Node

end PodWebhook.Json
