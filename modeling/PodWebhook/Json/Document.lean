import PodWebhook.Json.Node
import PodWebhook.Json.Skim

/-!
From bytes to the tree of a document. Values may be nested 127 deep; what lies deeper can be skipped
only.
-/

namespace PodWebhook.Json

structure Parsed where
  node : Node
  next : Except Fault (Bytes × Nat)

namespace Parsed

def broken (start : Nat) (fault : Fault) : Parsed :=
  ⟨.broken start fault fault, .error fault⟩

/-- A place that cannot be read: `skipped` tells whether it can be skipped. -/
def unreadable (start : Nat) (fault : Fault) (skipped : Except Fault (Bytes × Nat)) : Parsed :=
  match skipped with
  | .ok next => ⟨.unreadable start fault, .ok next⟩
  | .error skipping => ⟨.broken start fault skipping, .error skipping⟩

def ofText (rest : Bytes) (pos : Nat) : Parsed :=
  match readString rest (pos + 1) with
  | .ok s => ⟨.text pos s.pos s.value, .ok (s.rest, s.pos)⟩
  | .error fault => unreadable pos fault (skipText rest (pos + 1) .plain)

def ofNumber (bytes : Bytes) (pos : Nat) : Parsed :=
  match readNumber bytes pos with
  | .ok n => ⟨.number pos n.pos n.value, .ok (n.rest, n.pos)⟩
  | .error fault => unreadable pos fault (skipNumber bytes pos)

def ofWord (word : Word) (letters rest : Bytes) (pos : Nat) : Parsed :=
  match Word.readLetters letters rest (pos + 1) with
  | .error fault => broken pos fault
  | .ok (rest, stop) =>
    let node :=
      match word with
      | .null => Node.null stop
      | .true => Node.bool stop true
      | .false => Node.bool stop false
    ⟨node, .ok (rest, stop)⟩

structure Block (α : Type) where
  contents : List α
  ending : Ending
  next : Except Fault (Bytes × Nat)

def Block.stopped {α : Type} (contents : List α) (reading skipping closing : Fault) : Block α :=
  ⟨contents.reverse, .broken reading skipping closing, .error skipping⟩

/-- Items of a list, its opening bracket being behind; `fuel` exceeds the number of bytes. -/
def itemsOf (parse : Bytes → Nat → Parsed) :
    (fuel : Nat) → (first : Bool) → Bytes → Nat → List Node → Block Node
  | 0, _, _, pos, items => .stopped items ⟨.endInList, pos⟩ ⟨.endInList, pos⟩ ⟨.endInList, pos⟩
  | fuel + 1, first, bytes, pos, items =>
    let item := fun bytes pos =>
      let parsed := parse bytes pos
      match parsed.next with
      | .ok (rest, pos) => itemsOf parse fuel false rest pos (parsed.node :: items)
      | .error fault => .stopped (parsed.node :: items) fault fault fault
    match Bytes.skipBlanks bytes pos with
    | ([], pos) => .stopped items ⟨.endInList, pos⟩ ⟨.endInList, pos⟩ ⟨.endInList, pos⟩
    | (b :: rest, pos) =>
      if b == 0x5d then ⟨items.reverse, .closed (pos + 1), .ok (rest, pos + 1)⟩
      else if first then item (b :: rest) pos
      else if b == 0x2c then
        match Bytes.skipBlanks rest (pos + 1) with
        | ([], pos) =>
          .stopped items ⟨.endInValue, pos⟩ ⟨.endInValue, pos⟩ ⟨.trailingCharacters, pos⟩
        | (b :: rest, pos) =>
          if b == 0x5d then
            .stopped items ⟨.trailingComma, pos + 1⟩ ⟨.expectedValue, pos + 1⟩
              ⟨.trailingComma, pos + 1⟩
          else item (b :: rest) pos
      else
        .stopped items ⟨.expectedListEnd, pos + 1⟩ ⟨.expectedListEnd, pos + 1⟩
          ⟨.trailingCharacters, pos + 1⟩

def settle (bytes : Bytes) (pos : Nat) : Nat :=
  match Bytes.skipBlanks bytes pos with
  | (0x7d :: _, pos) => pos + 1
  | (_, pos) => pos

def memberValue (parse : Bytes → Nat → Parsed) (bytes : Bytes) (pos : Nat) : Parsed :=
  match skipColon bytes pos with
  | .ok (rest, pos) => parse rest pos
  | .error fault => broken pos fault

def readKey (rest : Bytes) (pos : Nat) : Except Fault String × Except Fault (Bytes × Nat) :=
  match readString rest pos with
  | .ok s => (.ok s.value, .ok (s.rest, s.pos))
  | .error fault => (.error fault, skipText rest pos .plain)

def membersOf (parse : Bytes → Nat → Parsed) :
    (fuel : Nat) → (first : Bool) → Bytes → Nat → List (Key × Node) → Block (Key × Node)
  | 0, _, _, pos, members =>
    .stopped members ⟨.endInObject, pos⟩ ⟨.endInObject, pos⟩ ⟨.endInObject, pos⟩
  | fuel + 1, first, bytes, pos, members =>
    let member := fun rest pos =>
      let (name, after) := readKey rest (pos + 1)
      match after with
      | .error fault =>
        let key : Key := ⟨name, some fault, pos, pos, pos⟩
        .stopped ((key, .broken pos fault fault) :: members) fault fault fault
      | .ok (rest, pos) =>
        let parsed := memberValue parse rest pos
        match parsed.next with
        | .error fault =>
          let key : Key := ⟨name, none, pos, settle rest pos, pos⟩
          .stopped ((key, parsed.node) :: members) fault fault fault
        | .ok (after, stop) =>
          let key : Key := ⟨name, none, pos, settle rest pos, settle after stop⟩
          membersOf parse fuel false after stop ((key, parsed.node) :: members)
    match Bytes.skipBlanks bytes pos with
    | ([], pos) => .stopped members ⟨.endInObject, pos⟩ ⟨.endInObject, pos⟩ ⟨.endInObject, pos⟩
    | (b :: rest, pos) =>
      let unkeyed : Fault := ⟨.keyNotString, pos + 1⟩
      if b == 0x7d then ⟨members.reverse, .closed (pos + 1), .ok (rest, pos + 1)⟩
      else if first then
        if b == 0x22 then member rest pos else .stopped members unkeyed unkeyed unkeyed
      else if b == 0x2c then
        match Bytes.skipBlanks rest (pos + 1) with
        | ([], pos) => .stopped members ⟨.endInValue, pos⟩ ⟨.endInObject, pos⟩ ⟨.endInValue, pos⟩
        | (b :: rest, pos) =>
          let unkeyed : Fault := ⟨.keyNotString, pos + 1⟩
          if b == 0x22 then member rest pos
          else if b == 0x7d then .stopped members ⟨.trailingComma, pos + 1⟩ unkeyed unkeyed
          else .stopped members unkeyed unkeyed unkeyed
      else
        let fault : Fault := ⟨.expectedObjectEnd, pos + 1⟩
        .stopped members fault fault fault

/-- Where a list is left that nothing is read from: past blanks and the closing bracket, or past a
comma and the blanks after it. -/
def leave (bytes : Bytes) (pos : Nat) : Nat :=
  match Bytes.skipBlanks bytes pos with
  | (0x5d :: _, pos) => pos + 1
  | (0x2c :: rest, pos) => (Bytes.skipBlanks rest (pos + 1)).2
  | (_, pos) => pos

def ofArray (parse : Bytes → Nat → Parsed) (limit : Nat) (rest : Bytes) (pos : Nat) : Parsed :=
  let block := itemsOf parse limit true rest (pos + 1) []
  ⟨.array pos (leave rest (pos + 1)) block.contents block.ending, block.next⟩

def ofObject (parse : Bytes → Nat → Parsed) (limit : Nat) (rest : Bytes) (pos : Nat) : Parsed :=
  let block := membersOf parse limit true rest (pos + 1) []
  ⟨.object pos block.contents block.ending, block.next⟩

def ofDeep (limit : Nat) (bytes : Bytes) (pos : Nat) : Parsed :=
  unreadable pos ⟨.tooDeep, pos + 1⟩ (skim (2 * limit) .value [] bytes pos)

def ofValue (array object : Bytes → Nat → Parsed) (bytes : Bytes) (pos : Nat) : Parsed :=
  match Bytes.skipBlanks bytes pos with
  | ([], pos) => broken pos ⟨.endInValue, pos⟩
  | (b :: rest, pos) =>
    if b == 0x5b then array rest pos
    else if b == 0x7b then object rest pos
    else if b == 0x22 then ofText rest pos
    else if b == 0x2d || Bytes.isDigit b then ofNumber (b :: rest) pos
    else
      match Word.ofFirst? b with
      | some (word, letters) => ofWord word letters rest pos
      | none => broken pos ⟨.expectedValue, pos + 1⟩

/-- A value in which brackets may be nested `depth` deep; `limit` exceeds the number of bytes. -/
def atDepth (limit : Nat) : (depth : Nat) → Bytes → Nat → Parsed
  | 0 =>
    ofValue (fun rest pos => ofDeep limit (0x5b :: rest) pos)
      (fun rest pos => ofDeep limit (0x7b :: rest) pos)
  | depth + 1 =>
    ofValue (ofArray (atDepth limit depth) limit) (ofObject (atDepth limit depth) limit)

end Parsed

structure Document where
  root : Node
  trailing : Option Fault

namespace Document

def maxDepth : Nat := 127

def ofBytes (bytes : Bytes) : Document :=
  let parsed := Parsed.atDepth (bytes.length + 1) maxDepth bytes 0
  let trailing :=
    match parsed.next with
    | .error _ => none
    | .ok (rest, pos) =>
      match Bytes.skipBlanks rest pos with
      | ([], _) => none
      | (_, pos) => some ⟨.trailingCharacters, pos + 1⟩
  ⟨parsed.node, trailing⟩

def toJson (document : Document) : Except Fault Json :=
  match document.root.toJson with
  | .error fault => .error fault
  | .ok value =>
    match document.trailing with
    | some fault => .error fault
    | none => .ok value

end Document

def parse (bytes : Bytes) : Except Fault Json :=
  (Document.ofBytes bytes).toJson

def Fault.describe (fault : Fault) (bytes : Bytes) : String :=
  fault.cause.message ++ (Location.ofOffset bytes fault.pos).toText

end PodWebhook.Json
