/-!
Bytes as they arrive: a list, read from the front. Text becomes bytes by UTF-8 and comes back only
when the bytes are valid UTF-8; `text?_utf8` says that nothing is lost on the way.
-/

namespace PodWebhook

abbrev Bytes := List UInt8

namespace Bytes

def utf8 (s : String) : Bytes := s.toByteArray.data.toList

def text? (bytes : Bytes) : Option String :=
  String.fromUTF8? ⟨bytes.toArray⟩

theorem utf8_append (s t : String) : utf8 (s ++ t) = utf8 s ++ utf8 t := by
  simp [utf8, String.toByteArray_append]

theorem text?_utf8 (s : String) : text? (utf8 s) = some s := by
  have h : (⟨(utf8 s).toArray⟩ : ByteArray) = s.toByteArray := by simp [utf8]
  rw [text?, h]
  simp only [String.fromUTF8?, dif_pos s.isValidUTF8]
  rfl

/-- How many bytes follow the first byte of a character, and the range of the next one. -/
def sequence? (b : UInt8) : Option (Nat × UInt8 × UInt8) :=
  if b < 0x80 then some (0, 0x80, 0xbf)
  else if 0xc2 ≤ b ∧ b ≤ 0xdf then some (1, 0x80, 0xbf)
  else if b = 0xe0 then some (2, 0xa0, 0xbf)
  else if b = 0xed then some (2, 0x80, 0x9f)
  else if 0xe1 ≤ b ∧ b ≤ 0xef then some (2, 0x80, 0xbf)
  else if b = 0xf0 then some (3, 0x90, 0xbf)
  else if 0xf1 ≤ b ∧ b ≤ 0xf3 then some (3, 0x80, 0xbf)
  else if b = 0xf4 then some (3, 0x80, 0x8f)
  else none

/-- Where bytes stop being UTF-8: the offset of the character that breaks off, and how many of its
bytes are there, or none if it may go on after the last byte. -/
structure Breach where
  start : Nat
  length : Option Nat
  deriving DecidableEq, Repr

/-- Looks for the first breach; `left` bytes of the character at `start` are still to come, the next
one in the range from `low` to `high`. -/
def breachFrom : Bytes → (pos start left : Nat) → (low high : UInt8) → Option Breach
  | [], _, start, left, _, _ => if left = 0 then none else some ⟨start, none⟩
  | b :: rest, pos, _, 0, _, _ =>
    match sequence? b with
    | some (left, low, high) => breachFrom rest (pos + 1) pos left low high
    | none => some ⟨pos, some 1⟩
  | b :: rest, pos, start, left + 1, low, high =>
    if low ≤ b ∧ b ≤ high then breachFrom rest (pos + 1) start left 0x80 0xbf
    else some ⟨start, some (pos - start)⟩

def breach? (bytes : Bytes) : Option Breach := breachFrom bytes 0 0 0 0 0

def isBlank (b : UInt8) : Bool :=
  b == 0x20 || b == 0x09 || b == 0x0a || b == 0x0d

def isDigit (b : UInt8) : Bool :=
  0x30 ≤ b && b ≤ 0x39

def digit (b : UInt8) : Nat := b.toNat - 0x30

def hexDigit? (b : UInt8) : Option Nat :=
  if isDigit b then some (digit b)
  else if 0x61 ≤ b && b ≤ 0x66 then some (b.toNat - 0x57)
  else if 0x41 ≤ b && b ≤ 0x46 then some (b.toNat - 0x37)
  else none

def skipBlanks : Bytes → Nat → Bytes × Nat
  | [], pos => ([], pos)
  | b :: rest, pos => if isBlank b then skipBlanks rest (pos + 1) else (b :: rest, pos)

end Bytes

end PodWebhook
