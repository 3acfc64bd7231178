import PodWebhook.Json.Basic

/-!
Scalars and flow collections of YAML: plain and quoted texts, and lists and maps in brackets and
braces. A plain text may stand for null, a truth value or an integer.
-/

namespace PodWebhook.Yaml

def isBlank (c : Char) : Bool := c == ' ' || c == '\t'

def skipBlanks (text : List Char) : List Char := text.dropWhile isBlank

def trimEnd (text : List Char) : List Char := (text.reverse.dropWhile isBlank).reverse

def isIndicator (c : Char) : Bool := "&*!|>%@\x60\x7b\x7d[],\"'#?".toList.contains c

def integer? (text : List Char) : Option Int :=
  let (negative, digits) := match text with
    | '-' :: rest => (true, rest)
    | rest => (false, rest)
  if !digits.isEmpty && digits.all Char.isDigit then
    let n := digits.foldl (fun n c => 10 * n + (c.toNat - '0'.toNat)) 0
    some (if negative then -n else n)
  else none

def ofPlain (text : List Char) : Json :=
  match String.ofList text with
  | "" | "~" | "null" => .null
  | "true" => .bool true
  | "false" => .bool false
  | s =>
    match integer? text with
    | some n => .number (.int n)
    | none => .text s

def readSingle : List Char → Option (List Char × List Char)
  | '\x27' :: '\x27' :: rest => (readSingle rest).map fun r => ('\x27' :: r.1, r.2)
  | '\x27' :: rest => some ([], rest)
  | c :: rest => (readSingle rest).map fun r => (c :: r.1, r.2)
  | [] => none

def escaped? : Char → Option Char
  | 'n' => some '\n'
  | 't' => some '\t'
  | 'r' => some '\r'
  | '"' => some '"'
  | '/' => some '/'
  | '\\' => some '\\'
  | _ => none

def readDouble : List Char → Option (List Char × List Char)
  | '"' :: rest => some ([], rest)
  | '\\' :: c :: rest => do
    let e ← escaped? c
    let (text, rest) ← readDouble rest
    some (e :: text, rest)
  | c :: rest => (readDouble rest).map fun r => (c :: r.1, r.2)
  | [] => none

def isFlowEnd (c : Char) : Bool := c == ',' || c == ']' || c == '\x7d'

def readFlowKey (text : List Char) : Option (String × List Char) := do
  let (key, rest) ← match text with
    | '"' :: rest => readDouble rest
    | '\x27' :: rest => readSingle rest
    | text =>
      let key := text.takeWhile fun c => c != ':' && !isFlowEnd c
      if key.isEmpty then none else some (trimEnd key, text.drop key.length)
  match skipBlanks rest with
  | ':' :: rest => some (String.ofList key, rest)
  | _ => none

mutual

/-- Reads a value inside a collection; `fuel` bounds the nesting and the number of items. -/
def readFlow (fuel : Nat) (text : List Char) : Option (Json × List Char) :=
  match fuel with
  | 0 => none
  | fuel + 1 =>
    match skipBlanks text with
    | '\x7b' :: rest => readFlowMap fuel (skipBlanks rest) []
    | '[' :: rest => readFlowList fuel (skipBlanks rest) []
    | '"' :: rest => (readDouble rest).map fun r => (.text (String.ofList r.1), r.2)
    | '\x27' :: rest => (readSingle rest).map fun r => (.text (String.ofList r.1), r.2)
    | text =>
      let plain := text.takeWhile fun c => !isFlowEnd c
      some (ofPlain (trimEnd plain), text.drop plain.length)

def readFlowList (fuel : Nat) (text : List Char) (items : List Json) :
    Option (Json × List Char) :=
  match fuel with
  | 0 => none
  | fuel + 1 =>
    match text with
    | ']' :: rest => some (.array items.reverse, rest)
    | text => do
      let (item, rest) ← readFlow fuel text
      match skipBlanks rest with
      | ',' :: rest => readFlowList fuel (skipBlanks rest) (item :: items)
      | ']' :: rest => some (.array (item :: items).reverse, rest)
      | _ => none

def readFlowMap (fuel : Nat) (text : List Char) (members : List (String × Json)) :
    Option (Json × List Char) :=
  match fuel with
  | 0 => none
  | fuel + 1 =>
    match text with
    | '\x7d' :: rest => some (Json.ofMembers members.reverse, rest)
    | text => do
      let (key, rest) ← readFlowKey text
      let (value, rest) ← readFlow fuel rest
      match skipBlanks rest with
      | ',' :: rest => readFlowMap fuel (skipBlanks rest) ((key, value) :: members)
      | '\x7d' :: rest => some (Json.ofMembers ((key, value) :: members).reverse, rest)
      | _ => none

end

def readInline (text : List Char) : Option Json :=
  match text with
  | c :: _ =>
    if c == '\x7b' || c == '[' || c == '"' || c == '\x27' then do
      let (value, rest) ← readFlow (text.length + 1) text
      if (skipBlanks rest).isEmpty then some value else none
    else if isIndicator c then none
    else some (ofPlain (trimEnd text))
  | [] => some .null

end PodWebhook.Yaml
