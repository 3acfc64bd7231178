import PodWebhook.Bytes
import PodWebhook.Text.Quoted

/-!
Bytes for people to read, valid UTF-8 or not: a byte outside any character and one that would not
show are written by their number, and quotes of either kind are escaped.
-/

namespace PodWebhook.Text

def hexByte (b : UInt8) : String :=
  "\\x" ++ (if b < 0x10 then "0" else "") ++ hex b.toNat

def asciiByte (b : UInt8) : String :=
  match b with
  | 0x09 => "\\t"
  | 0x0a => "\\n"
  | 0x0d => "\\r"
  | 0x22 => "\\\""
  | 0x27 => "\\'"
  | 0x5c => "\\\\"
  | b => if 0x20 ≤ b ∧ b ≤ 0x7e then String.singleton (Char.ofNat b.toNat) else hexByte b

/-- One byte on its own: its number, if it has to be written, in capitals. -/
def shownByte (b : UInt8) : String :=
  if 0x20 ≤ b ∧ b ≤ 0x7e ∨ b = 0x09 ∨ b = 0x0a ∨ b = 0x0d then asciiByte b
  else "\\x" ++ (if b < 0x10 then "0" else "") ++ (hex b.toNat).toUpper

def leading? (bytes : Bytes) : Option (Char × Nat) := do
  let (more, _) ← Bytes.sequence? (← bytes.head?)
  let text ← Bytes.text? (bytes.take (more + 1))
  return (← text.toList.head?, more + 1)

/-- Goes over the bytes and writes onto `text`; the first `skip` bytes belong to a character already
written. -/
def shownOnto (text : String) : (skip : Nat) → Bytes → String
  | _, [] => text
  | skip + 1, _ :: rest => shownOnto text skip rest
  | 0, b :: rest =>
    if b = 0 then shownOnto (text ++ "\\0") 0 rest
    else if b < 0x80 then shownOnto (text ++ asciiByte b) 0 rest
    else
      match leading? (b :: rest) with
      | some (c, length) => shownOnto (text ++ quotedChar c) (length - 1) rest
      | none => shownOnto (text ++ hexByte b) 0 rest

def shown (bytes : Bytes) : String := shownOnto "" 0 bytes

end PodWebhook.Text
