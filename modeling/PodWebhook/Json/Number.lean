import PodWebhook.Decimal.Shortest

/-!
Numbers of JSON values. A number without fraction and exponent that fits 64 bits, signed or
unsigned, is kept as an integer; every other number is a double, kept by its bits.
-/

namespace PodWebhook.Json

inductive Number where
  | int (value : Int)
  | double (bits : UInt64)
  deriving DecidableEq, Repr, Inhabited

namespace Number

def fits (value : Int) : Bool :=
  -0x8000000000000000 ≤ value && value < 0x10000000000000000

/-- How the digits of a double are laid out: positional from `10 ^ -5` up to below `10 ^ 16`, with
an exponent that always has a sign elsewhere. -/
def layout (x : Decimal.Scientific) : String :=
  let digits := Nat.repr x.digits
  let top : Int := digits.length + x.exponent
  if 0 ≤ x.exponent ∧ top ≤ 16 then x.positional ++ ".0"
  else if -5 < top ∧ top ≤ 16 then x.positional
  else
    let power := top - 1
    let tail := digits.toList.drop 1
    String.ofList (digits.toList.take 1) ++
      (if tail.isEmpty then "" else "." ++ String.ofList tail) ++ "e" ++
      (if power < 0 then "-" else "+") ++ Nat.repr power.natAbs

def signedText (bits : UInt64) (zero : String) (write : Decimal.Binary → String) : String :=
  let magnitude := Decimal.Binary.ofBits bits
  (if bits.toNat / 0x8000000000000000 = 1 then "-" else "") ++
    if magnitude.significand = 0 then zero else write magnitude

def doubleText (bits : UInt64) : String :=
  signedText bits "0.0" fun x => layout (Decimal.shortest .even x)

def toText : Number → String
  | .int value => toString value
  | .double bits => doubleText bits

def plainText : Number → String
  | .int value => toString value
  | .double bits => signedText bits "0" fun x => (Decimal.shortest .up x).positional

end Number

end PodWebhook.Json
