import PodWebhook.Log.Record
import PodWebhook.Log.Scope

/-!
Which events a log takes. A filter is a list of directives with commas between them; each sets the
most verbose level that is wanted, for all events or for those of a target, of a scope, or with
certain fields. Of the directives that apply to an event the most specific one counts, and of
equally specific ones the last. A directive that names a scope, or the fields of one, opens the log
for everything that happens in it.
-/

namespace PodWebhook.Log

inductive FilterError where
  | level
  | form
  deriving DecidableEq, Repr

namespace FilterError

def message : FilterError → String
  | level =>
    "error parsing level filter: expected one of \"off\", \"error\", \"warn\", \"info\", " ++
      "\"debug\", \"trace\", or a number 0-5"
  | form => "invalid filter directive"

end FilterError

/-- The most verbose level that is wanted; none wants nothing. -/
abbrev Limit := Option Level

namespace Limit

def ofNumber? : Nat → Option Limit
  | 0 => some none
  | 1 => some (some .error)
  | 2 => some (some .warn)
  | 3 => some (some .info)
  | 4 => some (some .debug)
  | 5 => some (some .trace)
  | _ => none

def digits? (text : List Char) : Option Nat :=
  let digits := match text with
    | '+' :: rest => rest
    | _ => text
  if !digits.isEmpty && digits.all Char.isDigit then
    some (digits.foldl (fun n c => 10 * n + (c.toNat - '0'.toNat)) 0)
  else none

def parse? (text : List Char) : Option Limit :=
  match digits? text with
  | some n => ofNumber? n
  | none =>
    match String.ofList (text.map Char.toLower) with
    | "off" => some none
    | "error" => some (some .error)
    | "warn" => some (some .warn)
    | "info" => some (some .info)
    | "debug" => some (some .debug)
    | "trace" => some (some .trace)
    | _ => none

def max (a b : Limit) : Limit :=
  match a, b with
  | none, b => b
  | a, none => a
  | some x, some y => if x.verbosity ≤ y.verbosity then some y else some x

end Limit

structure Directive where
  /-- What the target begins with. -/
  target : Option String
  scope : Option String
  fields : List (String × Option String)
  limit : Limit
  deriving DecidableEq, Repr

namespace Directive

def isStart (c : Char) : Bool :=
  c.isAlphanum || c == '-' || c == ':' || c == '_' || c.toNat ≥ 0x80

/-- Without a level a directive wants everything. -/
def limitOf (text : List Char) : Except FilterError Limit :=
  if text.isEmpty then .ok (some .trace)
  else
    match Limit.parse? text with
    | some limit => .ok limit
    | none => .error .level

def fieldOf (text : List Char) : String × Option String :=
  let name := text.takeWhile (· != '=')
  let value := (text.drop (name.length + 1)).takeWhile (· != '=')
  (String.ofList name,
    if name.length = text.length then none else some (String.ofList value))

def afterScope (directive : Directive) : List Char → Except FilterError Directive
  | [] => .ok directive
  | '=' :: level => do
    let limit ← limitOf level
    .ok { directive with limit := limit }
  | _ => .error .form

def parseScope (target : Option String) (text : List Char) : Except FilterError Directive :=
  let name := text.takeWhile fun c => c != ']' && c != '\x7b'
  let scope := String.ofList name
  match text.drop name.length with
  | ']' :: rest => afterScope ⟨target, some scope, [], some .trace⟩ rest
  | '\x7b' :: rest =>
    let fields := rest.takeWhile (· != '\x7d')
    match fields, rest.drop fields.length with
    | _ :: _, '\x7d' :: ']' :: rest =>
      afterScope
        ⟨target, if name.isEmpty then none else some scope, [fieldOf fields], some .trace⟩ rest
    | _, _ => .error .form
  | _ => .error .form

/-- A lone word is a level if it can be one, and a target otherwise. -/
def ofWord (word : List Char) : Directive :=
  match Limit.parse? word with
  | some limit => ⟨none, none, [], limit⟩
  | none => ⟨some (String.ofList word), none, [], some .trace⟩

def parse (text : List Char) : Except FilterError Directive :=
  match text with
  | [] => .error .form
  | '[' :: rest => parseScope none rest
  | c :: _ =>
    if isStart c then
      let word := text.takeWhile fun c => c != '=' && c != '['
      match text.drop word.length with
      | '=' :: level => do
        let limit ← limitOf level
        .ok ⟨some (String.ofList word), none, [], limit⟩
      | '[' :: rest => parseScope (some (String.ofList word)) rest
      | _ => .ok (ofWord word)
    else .error .form

def quiet (target : String) : Directive := ⟨some target, none, [], none⟩

def coversTarget (directive : Directive) (target : String) : Bool :=
  match directive.target with
  | some start => start.toList.isPrefixOf target.toList
  | none => true

def isForEvents (directive : Directive) : Bool :=
  directive.scope.isNone && directive.fields.all fun f => f.2.isNone

def isForScopes (directive : Directive) : Bool :=
  directive.scope.isSome || !directive.fields.isEmpty

def coversEvent (directive : Directive) (event : Event) : Bool :=
  directive.isForEvents && directive.coversTarget event.target &&
    directive.fields.all fun f => f.1 == "message" || event.fields.any fun e => e.1 == f.1

/-- Whether a scope is opened by its target alone, as an event would be. -/
def coversLikeEvent (directive : Directive) (scope : Scope) : Bool :=
  directive.isForEvents && directive.coversTarget scope.target

def coversScope (directive : Directive) (scope : Scope) : Bool :=
  directive.isForScopes && directive.coversTarget scope.target &&
    directive.scope.all (· == scope.name) &&
    directive.fields.all fun f => f.1 ∈ scope.names

def holdsFor (directive : Directive) (facts : NamedFields) : Bool :=
  directive.fields.all fun f =>
    match f.2 with
    | some text => facts.any fun fact => fact.1 == f.1 && fact.2 == .text text
    | none => true

/-- What makes a directive specific: first the length of its target, then its fields. -/
def weight (directive : Directive) : Option Nat × List String :=
  (directive.target.map String.utf8ByteSize, directive.fields.map (·.1))

def yieldsTo (a b : Directive) : Bool :=
  let (x, fs) := a.weight
  let (y, gs) := b.weight
  match x, y with
  | none, some _ => true
  | some _, none => false
  | some x, some y => x < y || (x == y && fs.length ≤ gs.length)
  | none, none => fs.length ≤ gs.length

end Directive

abbrev Filter := List Directive

namespace Filter

def muted : Filter := ["h2", "hyper", "rustls", "tower"].map Directive.quiet

def isBlank (c : Char) : Bool := c == ' ' || ('\t' ≤ c && c ≤ '\r')

def trim (text : List Char) : List Char :=
  ((text.dropWhile isBlank).reverse.dropWhile isBlank).reverse

def parts (text : List Char) : List (List Char) :=
  text.splitOn ','

def parse (text : String) : Except FilterError Filter := do
  let directives ←
    ((parts text.toList).filter fun p => !p.isEmpty).mapM fun p => Directive.parse (trim p)
  .ok (directives ++ muted)

def decisive (directives : Filter) : Option Directive :=
  directives.foldl
    (fun best d =>
      match best with
      | some b => if b.yieldsTo d then some d else some b
      | none => some d)
    none

def limit (directives : Filter) : Limit :=
  match decisive directives with
  | some d => d.limit
  | none => none

def opens (filter : Filter) (scope : Scope) : Bool :=
  filter.any (·.coversScope scope) ||
    wanted (limit (filter.filter (·.coversLikeEvent scope))) scope.level

def inside (filter : Filter) (scope : Scope) (facts : NamedFields) : Limit :=
  (filter.filter fun d => d.coversScope scope && d.holdsFor facts).foldl
    (fun limit d => limit.max d.limit) none

def allows (filter : Filter) (scope : Scope) (event : Event) : Bool :=
  wanted (limit (filter.filter (·.coversEvent event))) event.level ||
    (!event.context.isEmpty &&
      wanted (filter.inside scope (scope.entryFacts event.context)) event.level)

/-- The events that are taken, with their context if the scope is noted. -/
def select (filter : Filter) (scope : Scope) (events : List Event) : List Event :=
  let opened := filter.opens scope
  (events.filter (filter.allows scope)).map fun event =>
    if opened then event else { event with context := [] }

end Filter

end PodWebhook.Log
