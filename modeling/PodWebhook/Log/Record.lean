import PodWebhook.Event
import PodWebhook.Text.Quoted

/-!
Events as plain records: the message, and after it each field with its name.
-/

namespace PodWebhook.Log

def valueText : FieldValue → String
  | .text value => Text.quoted value
  | .plain value => value
  | .flag value => if value then "true" else "false"
  | .natural value => Nat.repr value

def fieldText (field : String × FieldValue) : String :=
  field.1 ++ "=" ++ valueText field.2

def recordText (event : Event) : String :=
  event.fields.foldl (fun text field => text ++ " " ++ fieldText field) event.message

def wanted (limit : Option Level) (level : Level) : Bool :=
  match limit with
  | some limit => level.verbosity ≤ limit.verbosity
  | none => false

end PodWebhook.Log
