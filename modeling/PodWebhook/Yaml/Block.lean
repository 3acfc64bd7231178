import PodWebhook.Yaml.Scalar

/-!
YAML documents in block style: maps and lists by indentation, one entry a line. Anchors, tags, block
scalars and texts over several lines are not read.
-/

namespace PodWebhook.Yaml

structure Line where
  indent : Nat
  text : List Char
  deriving Repr

def dropComment (quote : Option Char) (afterBlank : Bool) : List Char → List Char
  | [] => []
  | c :: rest =>
    match quote with
    | some q => c :: dropComment (if c = q then none else some q) false rest
    | none =>
      if c = '#' ∧ afterBlank then []
      else if (c = '"' ∨ c = '\x27') ∧ afterBlank then c :: dropComment (some c) false rest
      else c :: dropComment none (isBlank c) rest

def Line.ofText (text : List Char) : Line :=
  let indent := (text.takeWhile (· == ' ')).length
  ⟨indent, trimEnd (dropComment none true (text.drop indent))⟩

def linesOf (text : String) : List Line :=
  let lines := (text.splitOn "\n").map fun line =>
    Line.ofText (line.toList.filter (· != '\r'))
  lines.filter fun line => !line.text.isEmpty && line.text != ['-', '-', '-']

def Line.entry? (line : Line) : Option Line :=
  match line.text with
  | ['-'] => some ⟨line.indent + 1, []⟩
  | '-' :: ' ' :: rest =>
    let blanks := (rest.takeWhile (· == ' ')).length
    some ⟨line.indent + 2 + blanks, rest.drop blanks⟩
  | _ => none

/-- Splits a plain line at the first colon that a blank or nothing follows. -/
def splitKey (key : List Char) : List Char → Option (List Char × List Char)
  | [] => none
  | [':'] => some (key.reverse, [])
  | ':' :: c :: rest =>
    if isBlank c then some (key.reverse, skipBlanks rest) else splitKey (':' :: key) (c :: rest)
  | c :: rest => splitKey (c :: key) rest

def Line.member? (line : Line) : Option (String × List Char) :=
  match line.text with
  | '"' :: rest => do
    let (key, rest) ← readDouble rest
    match rest with
    | [':'] => some (String.ofList key, [])
    | ':' :: ' ' :: rest => some (String.ofList key, skipBlanks rest)
    | _ => none
  | c :: rest =>
    if isIndicator c then none
    else (splitKey [] (c :: rest)).map fun r => (String.ofList (trimEnd r.1), r.2)
  | [] => none

mutual

/-- Reads the value that starts on the first line; `fuel` bounds the number of steps. -/
def readBlock (fuel : Nat) (lines : List Line) : Option (Json × List Line) :=
  match fuel, lines with
  | 0, _ => none
  | _, [] => some (.null, [])
  | fuel + 1, line :: rest =>
    if line.entry?.isSome then readEntries fuel line.indent [] (line :: rest)
    else if line.member?.isSome then readMembers fuel line.indent [] (line :: rest)
    else do
      let value ← readInline line.text
      some (value, rest)

def readEntries (fuel : Nat) (indent : Nat) (items : List Json) (lines : List Line) :
    Option (Json × List Line) :=
  match fuel, lines with
  | 0, _ => none
  | _, [] => some (.array items.reverse, [])
  | fuel + 1, line :: rest =>
    match (if line.indent = indent then line.entry? else none) with
    | none => if line.indent > indent then none else some (.array items.reverse, line :: rest)
    | some entry => do
      let (item, rest) ←
        if entry.text.isEmpty then readNested fuel (indent + 1) rest
        else readBlock fuel (entry :: rest)
      readEntries fuel indent (item :: items) rest

def readMembers (fuel : Nat) (indent : Nat) (members : List (String × Json)) (lines : List Line) :
    Option (Json × List Line) :=
  match fuel, lines with
  | 0, _ => none
  | _, [] => some (Json.ofMembers members.reverse, [])
  | fuel + 1, line :: rest =>
    match (if line.indent = indent then line.member? else none) with
    | none =>
      if line.indent > indent then none else some (Json.ofMembers members.reverse, line :: rest)
    | some (key, text) => do
      let (value, rest) ←
        if text.isEmpty then
          match rest with
          | next :: _ =>
            if next.indent = indent ∧ next.entry?.isSome then readEntries fuel indent [] rest
            else readNested fuel (indent + 1) rest
          | [] => some (.null, [])
        else (readInline text).map fun value => (value, rest)
      readMembers fuel indent ((key, value) :: members) rest

/-- The value on lines that are indented at least so far; null if the next line is not. -/
def readNested (fuel : Nat) (least : Nat) (lines : List Line) : Option (Json × List Line) :=
  match fuel, lines with
  | 0, _ => none
  | _, [] => some (.null, [])
  | fuel + 1, line :: rest =>
    if line.indent ≥ least then readBlock fuel (line :: rest) else some (.null, line :: rest)

end

def parse? (text : String) : Option Json := do
  let lines := linesOf text
  let (value, rest) ← readBlock (4 * text.length + 4) lines
  if rest.isEmpty then some value else none

end PodWebhook.Yaml
