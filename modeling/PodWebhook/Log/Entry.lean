import PodWebhook.Json.Basic
import PodWebhook.Log.Record
import PodWebhook.Log.Scope

/-!
Events as JSON objects: level, fields with the message first, target, and the scope with its facts.
-/

namespace PodWebhook.Log

/-- A field's value; what stands as it is among others is text here. -/
def valueJson : FieldValue → Json
  | .text value => .text value
  | .plain value => .text value
  | .flag value => .bool value
  | .natural value => Json.natural value

def fieldsJson (event : Event) : Json :=
  .object
    (("message", .text event.message) :: event.fields.map fun field => (field.1, valueJson field.2))

/-- The facts of a scope in the order of their names, and its own name after them. A fact that is
called name is written too; a reader takes the last. -/
def scopeJson (scope : Scope) (facts : NamedFields) : Json :=
  .object
    (Keyed.ofList (facts.map fun fact => (fact.1, valueJson fact.2)) ++
      [("name", .text scope.name)])

def entryMembers (scope : Scope) (event : Event) : List (String × Json) :=
  let place :=
    if event.context.isEmpty then []
    else
      let inside := scopeJson scope event.context
      [("span", inside), ("spans", .array [inside])]
  [("level", .text event.level.name), ("fields", fieldsJson event),
    ("target", .text event.target)] ++ place

def entry (scope : Scope) (event : Event) : Json := .object (entryMembers scope event)

def timedEntry (scope : Scope) (time : String) (event : Event) : Json :=
  .object (("timestamp", .text time) :: entryMembers scope event)

end PodWebhook.Log
