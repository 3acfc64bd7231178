/-!
What the program reports while it works. An event has a level, the part of the program it comes
from, a message and named fields; how it is written is up to the log.
-/

namespace PodWebhook

inductive Level where
  | error
  | warn
  | info
  | debug
  | trace
  deriving DecidableEq, Repr, Inhabited

namespace Level

def name : Level → String
  | error => "ERROR"
  | warn => "WARN"
  | info => "INFO"
  | debug => "DEBUG"
  | trace => "TRACE"

/-- Zero is most severe. -/
def verbosity : Level → Nat
  | error => 0
  | warn => 1
  | info => 2
  | debug => 3
  | trace => 4

end Level

inductive FieldValue where
  /-- Text that is quoted where it stands among others. -/
  | text (value : String)
  /-- Text that stands as it is. -/
  | plain (value : String)
  | flag (value : Bool)
  | natural (value : Nat)
  deriving DecidableEq, Repr

abbrev NamedFields := List (String × FieldValue)

structure Event where
  level : Level
  target : String
  message : String
  fields : NamedFields
  /-- What was known when the event happened about the request being served; empty outside of one.
  -/
  context : NamedFields := []
  deriving DecidableEq, Repr

namespace Event

def within (context : NamedFields) (event : Event) : Event :=
  { event with context := context ++ event.context }

section

variable (context : NamedFields) (event : Event)

@[simp] theorem level_within : (event.within context).level = event.level := rfl

@[simp] theorem target_within : (event.within context).target = event.target := rfl

@[simp] theorem fields_within : (event.within context).fields = event.fields := rfl

end

end Event

/-- A result, and the events on the way to it in the order in which they happened. -/
structure Logged (α : Type) where
  value : α
  events : List Event
  deriving Repr

namespace Logged

def quiet {α : Type} (value : α) : Logged α := ⟨value, []⟩

def map {α β : Type} (f : α → β) (a : Logged α) : Logged β := ⟨f a.value, a.events⟩

def within {α : Type} (context : NamedFields) (a : Logged α) : Logged α :=
  ⟨a.value, a.events.map (Event.within context)⟩

end Logged

end PodWebhook
