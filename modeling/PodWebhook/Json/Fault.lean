import PodWebhook.Bytes

/-!
What can be wrong with a JSON text, and where. A fault carries the offset at which it is reported;
offsets become lines, counted from one, and columns, counted in bytes.
-/

namespace PodWebhook.Json

inductive Cause where
  | endInList
  | endInObject
  | endInString
  | endInValue
  | expectedColon
  | expectedListEnd
  | expectedObjectEnd
  | expectedIdent
  | expectedValue
  | invalidEscape
  | invalidNumber
  | numberOutOfRange
  | invalidCodePoint
  | controlCharacter
  | keyNotString
  | loneSurrogate
  | trailingComma
  | trailingCharacters
  | unpairedSurrogate
  | tooDeep
  deriving DecidableEq, Repr

namespace Cause

def message : Cause → String
  | endInList => "EOF while parsing a list"
  | endInObject => "EOF while parsing an object"
  | endInString => "EOF while parsing a string"
  | endInValue => "EOF while parsing a value"
  | expectedColon => "expected \x60:\x60"
  | expectedListEnd => "expected \x60,\x60 or \x60]\x60"
  | expectedObjectEnd => "expected \x60,\x60 or \x60\x7d\x60"
  | expectedIdent => "expected ident"
  | expectedValue => "expected value"
  | invalidEscape => "invalid escape"
  | invalidNumber => "invalid number"
  | numberOutOfRange => "number out of range"
  | invalidCodePoint => "invalid unicode code point"
  | controlCharacter => "control character (\\u0000-\\u001F) found while parsing a string"
  | keyNotString => "key must be a string"
  | loneSurrogate => "lone leading surrogate in hex escape"
  | trailingComma => "trailing comma"
  | trailingCharacters => "trailing characters"
  | unpairedSurrogate => "unexpected end of hex escape"
  | tooDeep => "recursion limit exceeded"

def atEnd : Cause → Bool
  | endInList | endInObject | endInString | endInValue => true
  | _ => false

end Cause

structure Fault where
  cause : Cause
  pos : Nat
  deriving DecidableEq, Repr

structure Location where
  line : Nat
  column : Nat
  deriving DecidableEq, Repr

namespace Location

def advance (location : Location) (b : UInt8) : Location :=
  if b == 0x0a then ⟨location.line + 1, 0⟩ else ⟨location.line, location.column + 1⟩

def ofOffset (bytes : Bytes) (pos : Nat) : Location :=
  (bytes.take pos).foldl advance ⟨1, 0⟩

def toText (location : Location) : String :=
  " at line " ++ Nat.repr location.line ++ " column " ++ Nat.repr location.column

end Location

def past (rest : Bytes) (pos : Nat) : Nat :=
  if rest.isEmpty then pos else pos + 1

end PodWebhook.Json
