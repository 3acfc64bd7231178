import PodWebhook.Json.Pointer

/-!
Patches: lists of operations that turn one JSON value into another. `run?` runs them in order and
fails as a whole when one of them fails.
-/

namespace PodWebhook.Json

inductive Operation where
  | add (path : Pointer) (value : Json)
  | remove (path : Pointer)
  | replace (path : Pointer) (value : Json)
  | move (source path : Pointer)
  | copy (source path : Pointer)
  | test (path : Pointer) (value : Json)
  deriving DecidableEq, Repr, Inhabited

abbrev Patch := List Operation

namespace Operation

def toJson : Operation → Json
  | add path value => .object [("op", .text "add"), ("path", .text path.toText), ("value", value)]
  | remove path => .object [("op", .text "remove"), ("path", .text path.toText)]
  | replace path value =>
    .object [("op", .text "replace"), ("path", .text path.toText), ("value", value)]
  | move source path =>
    .object [("op", .text "move"), ("from", .text source.toText), ("path", .text path.toText)]
  | copy source path =>
    .object [("op", .text "copy"), ("from", .text source.toText), ("path", .text path.toText)]
  | test path value =>
    .object [("op", .text "test"), ("path", .text path.toText), ("value", value)]

def pointerOf? (key : String) (value : Json) : Option Pointer :=
  match value.get? key with
  | some (.text s) => Pointer.parse? s
  | _ => none

/-- Reads an operation; members that it does not need are passed over. -/
def ofJson? (value : Json) : Option Operation := do
  let path ← pointerOf? "path" value
  match value.get? "op" with
  | some (.text "add") => (value.get? "value").map (add path)
  | some (.text "remove") => some (remove path)
  | some (.text "replace") => (value.get? "value").map (replace path)
  | some (.text "move") => (pointerOf? "from" value).map (move · path)
  | some (.text "copy") => (pointerOf? "from" value).map (copy · path)
  | some (.text "test") => (value.get? "value").map (test path)
  | _ => none

/-- Puts a part into a list or an object; `-` is the place after the last item. -/
def insert (part : Json) (step : String) : Json → Option Json
  | .object members => some (.object (Keyed.set step part members))
  | .array items =>
    if step = "-" then some (.array (items ++ [part]))
    else
      match Pointer.index? step with
      | some i => if i ≤ items.length then some (.array (items.insertIdx i part)) else none
      | none => none
  | _ => none

def delete (step : String) : Json → Option Json
  | .object members =>
    if (Keyed.get? step members).isSome then some (.object (Keyed.erase step members)) else none
  | .array items =>
    match Pointer.index? step with
    | some i => if i < items.length then some (.array (items.eraseIdx i)) else none
    | none => none
  | _ => none

def inParent (change : String → Json → Option Json) (path : Pointer) (value : Json) : Option Json :=
  match path.steps.getLast? with
  | some step => value.modifyAt? (change step) path.steps.dropLast
  | none => none

def addAt (path : Pointer) (part value : Json) : Option Json :=
  if path.steps.isEmpty then some part else inParent (insert part) path value

def removeAt (path : Pointer) (value : Json) : Option Json :=
  inParent delete path value

def run? (value : Json) : Operation → Option Json
  | add path part => addAt path part value
  | remove path => removeAt path value
  | replace path part => value.modifyAt? (fun _ => some part) path.steps
  | move source path =>
    if source.steps.isPrefixOf path.steps && source != path then none
    else do
      let part ← value.follow? source.steps
      let value ← removeAt source value
      addAt path part value
  | copy source path => do
    let part ← value.follow? source.steps
    addAt path part value
  | test path part =>
    match value.follow? path.steps with
    | some found => if found = part then some value else none
    | none => none

end Operation

namespace Patch

def toJson (patch : Patch) : Json := .array (patch.map Operation.toJson)

def ofJson? : Json → Option Patch
  | .array items => items.mapM Operation.ofJson?
  | _ => none

def run? (value : Json) (patch : Patch) : Option Json :=
  patch.foldlM Operation.run? value

end Patch

end PodWebhook.Json
