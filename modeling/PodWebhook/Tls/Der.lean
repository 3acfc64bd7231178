import PodWebhook.Bytes

/-!
DER elements: a tag, a length and a content. Certificates and keys are read only as far as it takes
to tell whether they belong together.
-/

namespace PodWebhook.Tls

structure Element where
  tag : UInt8
  content : Bytes
  whole : Bytes
  deriving DecidableEq, Repr

namespace Element

def readLength : Bytes → Option (Nat × Nat)
  | [] => none
  | b :: rest =>
    if b < 0x80 then some (b.toNat, 1)
    else
      let count := b.toNat - 0x80
      let digits := rest.take count
      if count = 0 ∨ count > 4 ∨ digits.length < count ∨ digits.head? = some 0 then none
      else
        let length := digits.foldl (fun n d => 256 * n + d.toNat) 0
        if length < 0x80 then none else some (length, count + 1)

def read : Bytes → Option (Element × Bytes)
  | [] => none
  | tag :: rest => do
    let (length, told) ← readLength rest
    let content := (rest.drop told).take length
    if content.length < length then none
    else
      some (⟨tag, content, (tag :: rest).take (1 + told + length)⟩, rest.drop (told + length))

def readMany (fuel : Nat) (bytes : Bytes) : Option (List Element) :=
  match fuel, bytes with
  | _, [] => some []
  | 0, _ :: _ => none
  | fuel + 1, b :: bytes => do
    let (element, rest) ← read (b :: bytes)
    let others ← readMany fuel rest
    some (element :: others)

def parts (element : Element) : Option (List Element) :=
  readMany element.content.length element.content

def sequenceTag : UInt8 := 0x30

/-- The parts of a sequence that fills all of the bytes. -/
def sequence? (bytes : Bytes) : Option (List Element) := do
  let (element, rest) ← read bytes
  if element.tag = sequenceTag ∧ rest.isEmpty then element.parts else none

def lengthBytes (n : Nat) : Bytes :=
  if n < 0x80 then [UInt8.ofNat n]
  else if n < 0x100 then [0x81, UInt8.ofNat n]
  else [0x82, UInt8.ofNat (n / 0x100), UInt8.ofNat n]

def make (tag : UInt8) (content : Bytes) : Bytes := tag :: lengthBytes content.length ++ content

end Element

end PodWebhook.Tls
