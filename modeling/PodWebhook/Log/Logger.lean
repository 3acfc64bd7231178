import PodWebhook.Json.Writer
import PodWebhook.Log.Entry
import PodWebhook.Log.Filter
import PodWebhook.Log.Text

/-!
The log of the program: a filter and a format. What is asked for is checked before anything is
logged, the filter first.
-/

namespace PodWebhook

inductive LogFormat where
  | json
  | text (color : Bool)
  deriving DecidableEq, Repr

inductive LogError where
  | level (found : String) (error : Log.FilterError)
  | format (found : String)
  deriving DecidableEq, Repr

namespace LogError

def message : LogError → String
  | level found error => "invalid log level " ++ found ++ ": " ++ error.message
  | format found => "Unknown log message format: " ++ found

end LogError

structure Logger where
  filter : Log.Filter
  format : LogFormat
  deriving DecidableEq, Repr

namespace Logger

def formatOf (name : String) (color : Bool) : Except LogError LogFormat :=
  match name with
  | "json" => .ok .json
  | "text" => .ok (.text color)
  | name => .error (.format name)

def make (level format : String) (color : Bool) : Except LogError Logger :=
  match Log.Filter.parse level with
  | .error error => .error (.level level error)
  | .ok filter => do
    let format ← formatOf format color
    .ok ⟨filter, format⟩

def select (logger : Logger) (events : List Event) : List Event :=
  logger.filter.select Log.Scope.review events

def line (logger : Logger) (time : String) (event : Event) : String :=
  match logger.format with
  | .json => (Log.timedEntry .review time event).compact
  | .text color => Log.line color .review time event

end Logger

end PodWebhook
