import PodWebhook.Http.Target
import PodWebhook.Http.Token
import PodWebhook.Text.Quoted

/-!
HTTP requests and responses. A request is made from the texts of its method, target and headers; the
first of them that is malformed is the fault.
-/

namespace PodWebhook.Http

abbrev Headers := List (String × Bytes)

structure Request where
  method : String
  target : Target
  headers : Headers
  body : Bytes

structure Response where
  status : Nat
  headers : List (String × String)
  body : String
  deriving DecidableEq, Repr

inductive RequestError where
  | method
  | target (error : TargetError)
  | headerName
  | headerValue
  deriving DecidableEq, Repr

namespace RequestError

def message : RequestError → String
  | method => "invalid HTTP method"
  | target error => error.message
  | headerName => "invalid HTTP header name"
  | headerValue => "failed to parse header value"

end RequestError

def isToken (text : String) : Bool :=
  !text.isEmpty && text.toList.all isTokenChar

def isValueByte (b : UInt8) : Bool := b == 0x09 || (0x20 ≤ b && b != 0x7f)

namespace Headers

def first? (name : String) (headers : Headers) : Option Bytes :=
  match headers.find? fun h => h.1 == name with
  | some h => some h.2
  | none => none

/-- The bytes of a header value as text, if they are visible ASCII, spaces and tabs. -/
def text? (value : Bytes) : Option String :=
  if value.all fun b => b == 0x09 || (0x20 ≤ b && b < 0x7f) then
    some (String.ofList (value.map fun b => Char.ofNat b.toNat))
  else none

def isName (text : String) : Bool := isToken text && text.utf8ByteSize < 0x10000

/-- Header names are kept in lower case. -/
def make (headers : List (String × Bytes)) : Except RequestError Headers :=
  headers.mapM fun h =>
    if !isName h.1 then .error .headerName
    else if !h.2.all isValueByte then .error .headerValue
    else .ok (String.ofList (h.1.toList.map Char.toLower), h.2)

end Headers

namespace Request

def make (method target : String) (headers : List (String × Bytes)) (body : Bytes) :
    Except RequestError Request :=
  if !isToken method then .error .method
  else
    match Target.parse target with
    | .error error => .error (.target error)
    | .ok target =>
      match Headers.make headers with
      | .error error => .error error
      | .ok headers => .ok ⟨method, target, headers, body⟩

end Request

end PodWebhook.Http
