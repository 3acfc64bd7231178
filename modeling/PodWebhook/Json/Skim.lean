import PodWebhook.Json.Token

/-!
Finding the end of a value without reading it. Brackets that are open are kept on a list, so that
values may be nested to any depth.
-/

namespace PodWebhook.Json

inductive Bracket where
  | list
  | object
  deriving DecidableEq, Repr

namespace Bracket

def ofOpening? (b : UInt8) : Option Bracket :=
  match b with
  | 0x5b => some list
  | 0x7b => some object
  | _ => none

def closing : Bracket → UInt8
  | list => 0x5d
  | object => 0x7d

def unclosed : Bracket → Cause
  | list => .endInList
  | object => .endInObject

def expectedEnd : Bracket → Cause
  | list => .expectedListEnd
  | object => .expectedObjectEnd

end Bracket

inductive Skim where
  | value
  | key
  | opened (bracket : Bracket)
  | after

def skipScalar (bytes : Bytes) (pos : Nat) : Except Fault (Bytes × Nat) :=
  match bytes with
  | [] => .error ⟨.endInValue, pos⟩
  | b :: rest =>
    if b == 0x22 then skipText rest (pos + 1) .plain
    else if b == 0x2d || Bytes.isDigit b then skipNumber bytes pos
    else
      match Word.ofFirst? b with
      | some (_, letters) => Word.readLetters letters rest (pos + 1)
      | none => .error ⟨.expectedValue, pos + 1⟩

def skipColon (bytes : Bytes) (pos : Nat) : Except Fault (Bytes × Nat) :=
  match Bytes.skipBlanks bytes pos with
  | (0x3a :: rest, pos) => .ok (rest, pos + 1)
  | ([], pos) => .error ⟨.endInObject, pos⟩
  | (_, pos) => .error ⟨.expectedColon, pos + 1⟩

/-- Each step but that after an opening bracket takes a byte at least, so twice the number of bytes
is fuel enough. -/
def skim : (fuel : Nat) → Skim → List Bracket → Bytes → Nat → Except Fault (Bytes × Nat)
  | 0, _, _, _, pos => .error ⟨.endInValue, pos⟩
  | fuel + 1, .value, open_, bytes, pos =>
    match Bytes.skipBlanks bytes pos with
    | ([], pos) => .error ⟨.endInValue, pos⟩
    | (b :: rest, pos) =>
      match Bracket.ofOpening? b with
      | some bracket => skim fuel (.opened bracket) (bracket :: open_) rest (pos + 1)
      | none =>
        match skipScalar (b :: rest) pos with
        | .ok (rest, pos) => skim fuel .after open_ rest pos
        | .error fault => .error fault
  | fuel + 1, .opened bracket, open_, bytes, pos =>
    match Bytes.skipBlanks bytes pos with
    | ([], pos) => .error ⟨bracket.unclosed, pos⟩
    | (b :: rest, pos) =>
      if b = bracket.closing then skim fuel .after open_.tail rest (pos + 1)
      else if bracket = .list then skim fuel .value open_ (b :: rest) pos
      else skim fuel .key open_ (b :: rest) pos
  | fuel + 1, .key, open_, bytes, pos =>
    match Bytes.skipBlanks bytes pos with
    | ([], pos) => .error ⟨.endInObject, pos⟩
    | (b :: rest, pos) =>
      if b == 0x22 then
        match skipText rest (pos + 1) .plain with
        | .error fault => .error fault
        | .ok (rest, pos) =>
          match skipColon rest pos with
          | .error fault => .error fault
          | .ok (rest, pos) => skim fuel .value open_ rest pos
      else .error ⟨.keyNotString, pos + 1⟩
  | _, .after, [], bytes, pos => .ok (bytes, pos)
  | fuel + 1, .after, bracket :: open_, bytes, pos =>
    match Bytes.skipBlanks bytes pos with
    | ([], pos) => .error ⟨bracket.unclosed, pos⟩
    | (b :: rest, pos) =>
      if b = bracket.closing then skim fuel .after open_ rest (pos + 1)
      else if b == 0x2c then
        skim fuel (if bracket = .list then .value else .key) (bracket :: open_) rest (pos + 1)
      else .error ⟨bracket.expectedEnd, pos + 1⟩

end PodWebhook.Json
