import PodWebhook.Http.Token

/-!
Media types of message bodies: a type and a subtype, and after a semicolon parameters. A parameter's
value is a token or a quoted text; only spaces may stand before its name, and nothing may stand
around its equals sign.
-/

namespace PodWebhook.Http

namespace MediaType

/-- Characters of a quoted value; a quote right after the opening one counts as one of them. -/
def isQuotedChar (c : Char) : Bool := 0x1f < c.toNat && c != '\x7f'

inductive ParamState where
  | start
  | name
  | value
  | token
  | opened
  | quoted
  | closed

def ParamState.step : ParamState → Char → Option ParamState
  | start, c => if c == ' ' then some start else if isTokenChar c then some name else none
  | name, c => if c == '=' then some value else if isTokenChar c then some name else none
  | value, c => if c == '"' then some opened else if isTokenChar c then some token else none
  | token, c => if c == ';' then some start else if isTokenChar c then some token else none
  | opened, c => if isQuotedChar c then some quoted else none
  | quoted, c => if c == '"' then some closed else if isQuotedChar c then some quoted else none
  | closed, c => if c == ';' then some start else if c == ' ' then some closed else none

def ParamState.complete : ParamState → Bool
  | start | value | token | closed => true
  | name | opened | quoted => false

def areParams (cs : List Char) : Bool :=
  match cs.foldlM ParamState.step .start with
  | some state => state.complete
  | none => false

def splitParams (cs : List Char) : List Char × Option (List Char) :=
  let essence := cs.takeWhile (· != ';')
  (essence, (cs.drop essence.length).tail?)

def isEssence (cs : List Char) : Bool :=
  let type := cs.takeWhile (· != '/')
  let subtype := cs.drop (type.length + 1)
  !type.isEmpty && type.all isTokenChar && !subtype.isEmpty && subtype.all isTokenChar

end MediaType

/-- Whether a text is the media type of JSON, in letters of either case and with any parameters. -/
def isJsonType (text : String) : Bool :=
  let (essence, params) := MediaType.splitParams text.toList
  MediaType.isEssence essence && essence.map Char.toLower == "application/json".toList &&
    (match params with
      | some params => MediaType.areParams params
      | none => true)

end PodWebhook.Http
