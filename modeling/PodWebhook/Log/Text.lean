import PodWebhook.Log.Record
import PodWebhook.Log.Scope

/-!
Events as lines of text: time, level, scope, target, message and fields. With color the parts are
marked by terminal codes.
-/

namespace PodWebhook.Log

inductive Mark where
  | bold
  | dim
  | italic
  | red
  | green
  | yellow
  | blue
  | purple
  deriving DecidableEq, Repr

namespace Mark

def code : Mark → Nat
  | bold => 1
  | dim => 2
  | italic => 3
  | red => 31
  | green => 32
  | yellow => 33
  | blue => 34
  | purple => 35

def ofLevel : Level → Mark
  | .error => red
  | .warn => yellow
  | .info => green
  | .debug => blue
  | .trace => purple

end Mark

def paint (color : Bool) (mark : Mark) (text : String) : String :=
  if color then "\x1b[" ++ Nat.repr mark.code ++ "m" ++ text ++ "\x1b[0m" else text

def levelText (level : Level) : String :=
  let name := level.name
  String.ofList (List.replicate (5 - name.length) ' ') ++ name

def namedText (color : Bool) (field : String × FieldValue) : String :=
  paint color .italic field.1 ++ paint color .dim "=" ++ valueText field.2

def colon (color : Bool) : String := paint color .dim ":" ++ " "

def scopeText (color : Bool) (scope : Scope) (facts : NamedFields) : String :=
  if facts.isEmpty then ""
  else
    paint color .bold scope.name ++ paint color .bold "\x7b" ++
      " ".intercalate (facts.map (namedText color)) ++ paint color .bold "\x7d" ++ colon color

def line (color : Bool) (scope : Scope) (time : String) (event : Event) : String :=
  paint color .dim time ++ " " ++
    paint color (.ofLevel event.level) (levelText event.level) ++ " " ++
    scopeText color scope event.context ++ paint color .dim event.target ++ colon color ++
    " ".intercalate (event.message :: event.fields.map (namedText color))

end PodWebhook.Log
