import PodWebhook.Command.Usage

/-!
Reading the command line. A value stands in the argument after its option or is attached to it by an
equals sign; what starts with a dash is never taken for a value unless it is attached. A value is
checked when the next option begins, so that an argument nobody knows is reported before a bad value
right in front of it. What the command line leaves open the environment settles, setting by setting,
and then the defaults.
-/

namespace PodWebhook.Command

/-- The values given so far, the latest first. -/
abbrev Given := List (Setting × String)

namespace Given

def get? (given : Given) (s : Setting) : Option String :=
  match given.find? fun g => g.1 == s with
  | some g => some g.2
  | none => none

def assign (given : Given) (s : Setting) (value : String) : Except UsageError Given :=
  if (given.get? s).isSome then .error (.repeated s)
  else if s.admits value then .ok ((s, value) :: given)
  else if value.isEmpty then .error (.missingValue s)
  else .error (.invalidValue s value)

end Given

inductive Stop where
  | help
  | version
  | error (error : UsageError)
  deriving DecidableEq, Repr

structure Reading where
  given : Given
  /-- The option that was read last, with its value once that has been read. -/
  pending : Option (Setting × Option String)
  ended : Bool
  deriving Repr

namespace Reading

def start : Reading := ⟨[], none, false⟩

def settle (r : Reading) : Except UsageError Reading :=
  match r.pending with
  | none => .ok r
  | some (s, none) => .error (.missingValue s)
  | some (s, some value) =>
    match r.given.assign s value with
    | .ok given => .ok ⟨given, none, r.ended⟩
    | .error error => .error error

def after (r : Reading) (next : Reading → Except Stop Reading) : Except Stop Reading :=
  match r.settle with
  | .ok r => next r
  | .error error => .error (.error error)

def assign (s : Setting) (value : String) (r : Reading) : Except Stop Reading :=
  match r.given.assign s value with
  | .ok given => .ok { r with given := given }
  | .error error => .error (.error error)

def special (stop : Stop) (title : String) (value : Option String) (r : Reading) :
    Except Stop Reading :=
  match value with
  | some value => .error (.error (.needlessValue title value))
  | none => r.after fun _ => .error stop

def setting (s : Setting) (value : Option String) (r : Reading) : Except Stop Reading :=
  match s.form?, value with
  | some _, some value => r.after (assign s value)
  | some _, none => r.after fun r => .ok { r with pending := some (s, none) }
  | none, some value => .error (.error (.needlessValue s.title value))
  | none, none => r.after (assign s "true")

def long (name : String) (value : Option String) (r : Reading) : Except Stop Reading :=
  match name with
  | "help" => r.special .help "--help" value
  | "version" => r.special .version "--version" value
  | name =>
    match Setting.ofOption? name with
    | some s => r.setting s value
    | none => .error (.error (.unknownArgument ("--" ++ name)))

/-- A short option; what follows its letter is not looked at. -/
def short (c : Char) (r : Reading) : Except Stop Reading :=
  match c with
  | 'h' => r.after fun _ => .error .help
  | 'V' => r.after fun _ => .error .version
  | c => .error (.error (.unknownArgument ("-" ++ String.singleton c)))

/-- An argument that is no option: the value that is still missing, if one is. -/
def plain (argument : String) (r : Reading) : Except Stop Reading :=
  match r.pending with
  | some (s, none) => .ok { r with pending := some (s, some argument) }
  | _ => .error (.error (.unknownArgument argument))

def splitValue (text : List Char) : String × Option String :=
  let name := text.takeWhile (· != '=')
  (String.ofList name, ((text.drop name.length).tail?).map String.ofList)

def step (r : Reading) (argument : String) : Except Stop Reading :=
  if r.ended then .error (.error (.unknownArgument argument))
  else
    match argument.toList with
    | ['-', '-'] => .ok { r with ended := true }
    | '-' :: '-' :: text =>
      let (name, value) := splitValue text
      r.long name value
    | '-' :: c :: _ => r.short c
    | _ => r.plain argument

end Reading

/-- Adds the value of a setting from the environment, unless it is there already. -/
def addVariable (environment : Environment) (given : Given) (s : Setting) :
    Except UsageError Given :=
  match given.get? s, environment.get? s.envVar with
  | none, some value => given.assign s value
  | _, _ => .ok given

def read (arguments : List String) (environment : Environment) : Except Stop Given :=
  match arguments.foldlM Reading.step Reading.start with
  | .error stop => .error stop
  | .ok r =>
    match r.settle with
    | .error error => .error (.error error)
    | .ok r =>
      match Setting.all.foldlM (addVariable environment) r.given with
      | .error error => .error (.error error)
      | .ok given => .ok given

def Given.value (given : Given) (s : Setting) : String := (given.get? s).getD s.default

end PodWebhook.Command
