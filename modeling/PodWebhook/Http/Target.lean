import PodWebhook.Bytes

/-!
Request targets: a path with a query, a whole URI, a lone authority, or an asterisk. Of a target
that is accepted the path decides where a request goes; a fragment is cut off.
-/

namespace PodWebhook.Http

inductive TargetError where
  | invalidCharacter
  | invalidAuthority
  | invalidFormat
  | tooLong
  | empty
  | schemeTooLong
  deriving DecidableEq, Repr

namespace TargetError

def message : TargetError → String
  | invalidCharacter => "invalid uri character"
  | invalidAuthority => "invalid authority"
  | invalidFormat => "invalid format"
  | tooLong => "uri too long"
  | empty => "empty string"
  | schemeTooLong => "scheme too long"

end TargetError

structure Target where
  path : String
  query : Option String
  deriving DecidableEq, Repr, Inhabited

namespace Target

/-- Characters of a path. Quotes and braces should be escaped there but are let through. -/
def isPathChar (c : Char) : Bool :=
  c == '!' || ('"' ≤ c && c ≤ ';' && c != '#') || c == '=' || ('@' ≤ c && c ≤ '_') ||
    ('a' ≤ c && c ≤ '~') || c.toNat ≥ 0x7f

def isQueryChar (c : Char) : Bool :=
  c == '!' || ('$' ≤ c && c ≤ ';') || c == '=' || ('?' ≤ c && c ≤ '~') || c.toNat ≥ 0x7f

def dropFragment (cs : List Char) : List Char := cs.takeWhile (· != '#')

/-- A path that is empty stands for the root, unless there is nothing else in the target. -/
def ofPathAndQuery (cs : List Char) : Except TargetError Target :=
  let cs := dropFragment cs
  let path := cs.takeWhile (· != '?')
  let query := cs.drop path.length
  if path.all isPathChar ∧ (query.drop 1).all isQueryChar then
    .ok
      { path := if path.isEmpty then "/" else String.ofList path
        query := if query.isEmpty then none else some (String.ofList (query.drop 1)) }
  else .error .invalidCharacter

def maxLength : Nat := 65534

def isSchemeChar (c : Char) : Bool :=
  ('a' ≤ c && c ≤ 'z') || ('A' ≤ c && c ≤ 'Z') || ('0' ≤ c && c ≤ '9') || c == '+' || c == '-' ||
    c == '.'

def schemeLength? (cs : List Char) : Option Nat :=
  let scheme := cs.takeWhile isSchemeChar
  match cs.drop scheme.length with
  | ':' :: '/' :: '/' :: _ => some scheme.length
  | _ => none

def isUriChar (c : Char) : Bool :=
  ('a' ≤ c && c ≤ 'z') || ('A' ≤ c && c ≤ 'Z') || ('0' ≤ c && c ≤ '9') ||
    "!#$&'()*+,-./:;=?@[]_~".toList.contains c

structure AuthorityState where
  colons : Nat
  opened : Bool
  closed : Bool
  percent : Bool
  bareUser : Bool

def AuthorityState.step (s : AuthorityState) (c : Char) : Except TargetError AuthorityState :=
  let s' := { s with bareUser := false }
  match c with
  | ':' => if s.colons ≥ 8 then .error .invalidAuthority else .ok { s' with colons := s.colons + 1 }
  | '[' =>
    if s.percent || s.opened then .error .invalidAuthority else .ok { s' with opened := true }
  | ']' =>
    if !s.opened || s.closed then .error .invalidAuthority
    else .ok { s' with closed := true, colons := 0, percent := false }
  | '@' => .ok { s with colons := 0, percent := false, bareUser := true }
  | '%' => .ok { s' with percent := true }
  | c => if isUriChar c then .ok s' else .error .invalidCharacter

/-- An authority has balanced brackets, at most one colon before a port, something after a user, and
percent signs only in a user or between brackets. -/
def checkAuthority (cs : List Char) : Except TargetError Unit := do
  let s ← cs.foldlM AuthorityState.step ⟨0, false, false, false, false⟩
  if s.opened != s.closed || s.colons > 1 || s.bareUser || s.percent then .error .invalidAuthority
  else .ok ()

def authorityOf (cs : List Char) : List Char :=
  cs.takeWhile fun c => c != '/' && c != '?' && c != '#'

def ofUri (cs : List Char) : Except TargetError Target :=
  match schemeLength? cs with
  | none => do
    let authority := authorityOf cs
    checkAuthority authority
    if authority.length = cs.length then .ok ⟨"", none⟩ else .error .invalidFormat
  | some n => do
    if n > 64 then .error .schemeTooLong
    let rest := cs.drop (n + 3)
    let authority := authorityOf rest
    checkAuthority authority
    if authority.isEmpty then .error .invalidFormat
    ofPathAndQuery (rest.drop authority.length)

def parse (text : String) : Except TargetError Target :=
  if text.utf8ByteSize > maxLength then .error .tooLong
  else
    match text.toList with
    | [] => .error .empty
    | ['*'] => .ok ⟨"*", none⟩
    | ['/'] => .ok ⟨"/", none⟩
    | '/' :: cs => ofPathAndQuery ('/' :: cs)
    | [c] => do
      checkAuthority (authorityOf [c])
      if (authorityOf [c]).isEmpty then .error .invalidCharacter else .ok ⟨"", none⟩
    | cs => ofUri cs

def toText (target : Target) : String :=
  match target.query with
  | some query => target.path ++ "?" ++ query
  | none => target.path

end Target

end PodWebhook.Http
