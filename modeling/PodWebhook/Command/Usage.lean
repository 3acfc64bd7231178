import PodWebhook.Command.Setting

/-!
How the program describes itself and what it says about a command line that it does not understand.
-/

namespace PodWebhook.Command

abbrev Environment := List (String × String)

namespace Environment

/-- The value of a variable; the last one counts. -/
def get? (environment : Environment) (name : String) : Option String :=
  match environment.reverse.find? fun v => v.1 == name with
  | some v => some v.2
  | none => none

end Environment

def programName : String := "mutating-webhook-server"

def versionText : String := programName ++ " 0.1.0\n"

/-- What is said of a setting beside its help: the variable with its value, the default value and
the choices. -/
def remarks (environment : Environment) (s : Setting) : List String :=
  let variableRemark :=
    "[env: " ++ s.envVar ++ "=" ++ (environment.get? s.envVar).getD "" ++ "]"
  match s.form? with
  | none => [variableRemark]
  | some form =>
    let shown := if form.default.isEmpty then "\"\"" else form.default
    [variableRemark, "[default: " ++ shown ++ "]"] ++
      if form.choices.isEmpty then []
      else ["[possible values: " ++ ", ".intercalate form.choices ++ "]"]

def settingText (environment : Environment) (s : Setting) : String :=
  "      " ++ s.title ++ "\n          " ++ " ".intercalate (s.help :: remarks environment s) ++ "\n"

def helpText (environment : Environment) : String :=
  "HTTPS admission webhook serving the Pod image mutation\n\nUsage: " ++ programName ++
    " [OPTIONS]\n\nOptions:\n" ++ String.join (Setting.all.map (settingText environment)) ++
    "  -h, --help\n          Print help\n  -V, --version\n          Print version\n"

inductive UsageError where
  | unknownArgument (argument : String)
  | invalidValue (setting : Setting) (value : String)
  | missingValue (setting : Setting)
  | repeated (setting : Setting)
  | needlessValue (title value : String)
  deriving DecidableEq, Repr

namespace UsageError

def message : UsageError → String
  | unknownArgument argument => "error: unexpected argument '" ++ argument ++ "' found"
  | invalidValue setting value =>
    "error: invalid value '" ++ value ++ "' for '" ++ setting.title ++ "'"
  | missingValue setting =>
    "error: a value is required for '" ++ setting.title ++ "' but none was supplied"
  | repeated setting =>
    "error: the argument '" ++ setting.title ++ "' cannot be used multiple times"
  | needlessValue title value =>
    "error: unexpected value '" ++ value ++ "' for '" ++ title ++
      "' found; no more were expected"

end UsageError

end PodWebhook.Command
