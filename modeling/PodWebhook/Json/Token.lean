import PodWebhook.Json.Fault
import PodWebhook.Json.Number

/-!
The tokens of a JSON text that hold data: strings and numbers. Each has two scanners. Reading yields
the value and refuses whatever has none; skipping only finds the end of the token, so that it
accepts unpaired surrogates, invalid UTF-8 and numbers of any size.
-/

namespace PodWebhook.Json

structure Scanned (α : Type) where
  value : α
  rest : Bytes
  pos : Nat
  deriving Repr

/-- Where a string is being read: between characters, after a backslash, inside the four digits of
an escape, or between the two escapes of a surrogate pair. -/
inductive TextState where
  | plain
  | escaped
  | hex (lead : Option Nat) (left : Nat) (value : Option Nat)
  | paired (lead : Nat)
  | pairedEscape (lead : Nat)

def hexStep (value : Option Nat) (b : UInt8) : Option Nat :=
  match value, Bytes.hexDigit? b with
  | some n, some d => some (16 * n + d)
  | _, _ => none

def unescape (b : UInt8) : Option UInt8 :=
  match b with
  | 0x22 => some 0x22
  | 0x5c => some 0x5c
  | 0x2f => some 0x2f
  | 0x62 => some 0x08
  | 0x66 => some 0x0c
  | 0x6e => some 0x0a
  | 0x72 => some 0x0d
  | 0x74 => some 0x09
  | _ => none

def isLowSurrogate (n : Nat) : Bool := 0xdc00 ≤ n && n ≤ 0xdfff

def isHighSurrogate (n : Nat) : Bool := 0xd800 ≤ n && n ≤ 0xdbff

def encodeReversed (n : Nat) : Bytes :=
  (String.utf8EncodeChar (Char.ofNat n)).reverse

def invalidCount (content : Bytes) : Nat :=
  match Bytes.breach? content with
  | some breach => content.length - breach.start
  | none => 0

/-- Reads a string whose opening quote is behind; `content` holds its bytes so far, last one first.
A string that is no UTF-8 is reported before its end, by as many bytes as its content has from the
first invalid one on; an escape counts as the bytes that it stands for. -/
def readText : Bytes → Nat → TextState → Bytes → Except Fault (Scanned String)
  | [], pos, _, _ => .error ⟨.endInString, pos⟩
  | b :: rest, pos, .plain, content =>
    if b == 0x22 then
      match Bytes.text? content.reverse with
      | some s => .ok ⟨s, rest, pos + 1⟩
      | none => .error ⟨.invalidCodePoint, pos + 1 - invalidCount content.reverse⟩
    else if b == 0x5c then readText rest (pos + 1) .escaped content
    else if b < 0x20 then .error ⟨.controlCharacter, pos + 1⟩
    else readText rest (pos + 1) .plain (b :: content)
  | b :: rest, pos, .escaped, content =>
    if b == 0x75 then readText rest (pos + 1) (.hex none 3 (some 0)) content
    else
      match unescape b with
      | some c => readText rest (pos + 1) .plain (c :: content)
      | none => .error ⟨.invalidEscape, pos + 1⟩
  | b :: rest, pos, .hex lead (left + 1) value, content =>
    readText rest (pos + 1) (.hex lead left (hexStep value b)) content
  | b :: rest, pos, .hex lead 0 value, content =>
    match hexStep value b, lead with
    | none, _ => .error ⟨.invalidEscape, pos + 1⟩
    | some n, none =>
      if isLowSurrogate n then .error ⟨.loneSurrogate, pos + 1⟩
      else if isHighSurrogate n then readText rest (pos + 1) (.paired n) content
      else readText rest (pos + 1) .plain (encodeReversed n ++ content)
    | some n, some high =>
      if isLowSurrogate n then
        readText rest (pos + 1) .plain
          (encodeReversed ((high - 0xd800) * 0x400 + (n - 0xdc00) + 0x10000) ++ content)
      else .error ⟨.loneSurrogate, pos + 1⟩
  | b :: rest, pos, .paired high, content =>
    if b == 0x5c then readText rest (pos + 1) (.pairedEscape high) content
    else .error ⟨.unpairedSurrogate, pos + 1⟩
  | b :: rest, pos, .pairedEscape high, content =>
    if b == 0x75 then readText rest (pos + 1) (.hex (some high) 3 (some 0)) content
    else .error ⟨.unpairedSurrogate, pos + 1⟩

def readString (rest : Bytes) (pos : Nat) : Except Fault (Scanned String) :=
  readText rest pos .plain []

def skipText : Bytes → Nat → TextState → Except Fault (Bytes × Nat)
  | [], pos, _ => .error ⟨.endInString, pos⟩
  | b :: rest, pos, .escaped =>
    if b == 0x75 then skipText rest (pos + 1) (.hex none 3 (some 0))
    else if (unescape b).isSome then skipText rest (pos + 1) .plain
    else .error ⟨.invalidEscape, pos + 1⟩
  | b :: rest, pos, .hex lead (left + 1) value =>
    skipText rest (pos + 1) (.hex lead left (hexStep value b))
  | b :: rest, pos, .hex _ 0 value =>
    if (hexStep value b).isSome then skipText rest (pos + 1) .plain
    else .error ⟨.invalidEscape, pos + 1⟩
  | b :: rest, pos, _ =>
    if b == 0x22 then .ok (rest, pos + 1)
    else if b == 0x5c then skipText rest (pos + 1) .escaped
    else if b < 0x20 then .error ⟨.controlCharacter, pos⟩
    else skipText rest (pos + 1) .plain

/-- Digits read onto a significand for as long as it stays below `2 ^ 64`; `count` of them were
taken. -/
structure Digits where
  significand : Nat
  count : Nat
  rest : Bytes

def takeDigits (limit : Nat) : Bytes → (significand count : Nat) → Digits
  | [], significand, count => ⟨significand, count, []⟩
  | b :: rest, significand, count =>
    if Bytes.isDigit b && significand * 10 + Bytes.digit b < limit then
      takeDigits limit rest (significand * 10 + Bytes.digit b) (count + 1)
    else ⟨significand, count, b :: rest⟩

def dropDigits : Bytes → Nat → Nat × Bytes
  | [], count => (count, [])
  | b :: rest, count => if Bytes.isDigit b then dropDigits rest (count + 1) else (count, b :: rest)

def startsWithDigit : Bytes → Bool
  | b :: _ => Bytes.isDigit b
  | [] => false

def isExponentMark (b : UInt8) : Bool := b == 0x65 || b == 0x45

def powerOfTen (exponent : Nat) : Float := Float.ofScientific 1 false exponent

/-- Scales a significand by a power of ten, a factor of at most `10 ^ 308` at a time; `none` when
the result is too large. Every step rounds. -/
def scale : (fuel : Nat) → Float → Int → Option Float
  | 0, _, _ => none
  | fuel + 1, x, exponent =>
    if exponent.natAbs ≤ 308 then
      if 0 ≤ exponent then
        let y := x * powerOfTen exponent.natAbs
        if y.isInf then none else some y
      else some (x / powerOfTen exponent.natAbs)
    else if x == 0.0 then some x
    else if 0 ≤ exponent then none
    else scale fuel (x / powerOfTen 308) (exponent + 308)

def signed (negative : Bool) (x : Float) : Number :=
  .double (if negative then -x else x).toBits

def decimal (negative : Bool) (significand : Nat) (exponent : Int) (rest : Bytes) (pos : Nat) :
    Except Fault (Scanned Number) :=
  match scale (exponent.natAbs / 308 + 1) (Float.ofNat significand) exponent with
  | some x => .ok ⟨signed negative x, rest, pos⟩
  | none => .error ⟨.numberOutOfRange, pos⟩

def clampExponent (exponent : Int) : Int :=
  max (-0x80000000) (min 0x7fffffff exponent)

def readExponentDigits (negative : Bool) (significand : Nat) (start : Int) (down : Bool)
    (bytes : Bytes) (pos : Nat) : Except Fault (Scanned Number) :=
  match bytes with
  | [] => .error ⟨.endInValue, pos⟩
  | b :: _ =>
    if Bytes.isDigit b then
      let ds := takeDigits 0x80000000 bytes 0 0
      let pos := pos + ds.count
      if startsWithDigit ds.rest then
        if significand ≠ 0 ∧ !down then .error ⟨.numberOutOfRange, pos + 1⟩
        else
          let (count, rest) := dropDigits ds.rest 0
          .ok ⟨signed negative 0.0, rest, pos + count⟩
      else
        let shift : Int := if down then -(ds.significand : Int) else ds.significand
        decimal negative significand (clampExponent (start + shift)) ds.rest pos
    else .error ⟨.invalidNumber, pos + 1⟩

def readExponent (negative : Bool) (significand : Nat) (start : Int) (bytes : Bytes) (pos : Nat) :
    Except Fault (Scanned Number) :=
  match bytes with
  | 0x2b :: rest => readExponentDigits negative significand start false rest (pos + 1)
  | 0x2d :: rest => readExponentDigits negative significand start true rest (pos + 1)
  | _ => readExponentDigits negative significand start false bytes pos

def readScale (negative : Bool) (significand : Nat) (exponent : Int) (bytes : Bytes) (pos : Nat) :
    Except Fault (Scanned Number) :=
  match bytes with
  | b :: rest =>
    if isExponentMark b then readExponent negative significand exponent rest (pos + 1)
    else decimal negative significand exponent bytes pos
  | [] => decimal negative significand exponent bytes pos

/-- Reads a fraction whose point is behind. Digits that the significand cannot take are dropped. -/
def readFraction (negative : Bool) (significand : Nat) (exponent : Int) (bytes : Bytes)
    (pos : Nat) : Except Fault (Scanned Number) :=
  let ds := takeDigits 0x10000000000000000 bytes significand 0
  let pos := pos + ds.count
  if startsWithDigit ds.rest then
    let (count, rest) := dropDigits ds.rest 0
    readScale negative ds.significand (exponent - ds.count) rest (pos + count)
  else if ds.count = 0 then
    .error ⟨if ds.rest.isEmpty then .endInValue else .invalidNumber, past ds.rest pos⟩
  else readScale negative ds.significand (exponent - ds.count) ds.rest pos

def integer (negative : Bool) (significand : Nat) : Number :=
  if negative then
    if significand = 0 ∨ 0x8000000000000000 < significand then signed true (Float.ofNat significand)
    else .int (-(significand : Int))
  else .int significand

/-- Reads a number after its sign. Digits of the integer part that the significand cannot take count
into the exponent. -/
def readMagnitude (negative : Bool) (bytes : Bytes) (pos : Nat) : Except Fault (Scanned Number) :=
  match bytes with
  | [] => .error ⟨.endInValue, pos⟩
  | b :: rest =>
    if !Bytes.isDigit b then .error ⟨.invalidNumber, pos + 1⟩
    else if b == 0x30 && startsWithDigit rest then .error ⟨.invalidNumber, pos + 2⟩
    else
      let ds := takeDigits 0x10000000000000000 bytes 0 0
      let (extra, after) := dropDigits ds.rest 0
      let pos := pos + ds.count + extra
      match after with
      | [] =>
        if extra = 0 then .ok ⟨integer negative ds.significand, after, pos⟩
        else decimal negative ds.significand extra after pos
      | c :: tail =>
        if c == 0x2e then readFraction negative ds.significand extra tail (pos + 1)
        else if isExponentMark c then readExponent negative ds.significand extra tail (pos + 1)
        else if extra = 0 then .ok ⟨integer negative ds.significand, after, pos⟩
        else decimal negative ds.significand extra after pos

def readNumber (bytes : Bytes) (pos : Nat) : Except Fault (Scanned Number) :=
  match bytes with
  | 0x2d :: rest => readMagnitude true rest (pos + 1)
  | _ => readMagnitude false bytes pos

def skipExponent (bytes : Bytes) (pos : Nat) : Except Fault (Bytes × Nat) :=
  let (bytes, pos) :=
    match bytes with
    | 0x2b :: rest => (rest, pos + 1)
    | 0x2d :: rest => (rest, pos + 1)
    | _ => (bytes, pos)
  if startsWithDigit bytes then
    let (count, rest) := dropDigits bytes 0
    .ok (rest, pos + count)
  else .error ⟨.invalidNumber, past bytes pos⟩

def skipScale (bytes : Bytes) (pos : Nat) : Except Fault (Bytes × Nat) :=
  match bytes with
  | b :: rest => if isExponentMark b then skipExponent rest (pos + 1) else .ok (bytes, pos)
  | [] => .ok (bytes, pos)

def skipFraction (bytes : Bytes) (pos : Nat) : Except Fault (Bytes × Nat) :=
  if startsWithDigit bytes then
    let (count, rest) := dropDigits bytes 0
    skipScale rest (pos + count)
  else .error ⟨.invalidNumber, past bytes pos⟩

def skipMagnitude (bytes : Bytes) (pos : Nat) : Except Fault (Bytes × Nat) :=
  match bytes with
  | [] => .error ⟨.invalidNumber, pos⟩
  | b :: rest =>
    if !Bytes.isDigit b then .error ⟨.invalidNumber, pos + 1⟩
    else if b == 0x30 && startsWithDigit rest then .error ⟨.invalidNumber, pos + 2⟩
    else
      let (count, after) := dropDigits bytes 0
      match after with
      | 0x2e :: tail => skipFraction tail (pos + count + 1)
      | _ => skipScale after (pos + count)

def skipNumber (bytes : Bytes) (pos : Nat) : Except Fault (Bytes × Nat) :=
  match bytes with
  | 0x2d :: rest => skipMagnitude rest (pos + 1)
  | _ => skipMagnitude bytes pos

inductive Word where
  | null
  | true
  | false

namespace Word

def ofFirst? (b : UInt8) : Option (Word × Bytes) :=
  match b with
  | 0x6e => some (.null, [0x75, 0x6c, 0x6c])
  | 0x74 => some (.true, [0x72, 0x75, 0x65])
  | 0x66 => some (.false, [0x61, 0x6c, 0x73, 0x65])
  | _ => none

def readLetters : (letters : Bytes) → Bytes → Nat → Except Fault (Bytes × Nat)
  | [], rest, pos => .ok (rest, pos)
  | _ :: _, [], pos => .error ⟨.endInValue, pos⟩
  | l :: letters, b :: rest, pos =>
    if l = b then readLetters letters rest (pos + 1) else .error ⟨.expectedIdent, pos + 1⟩

end Word

end PodWebhook.Json
