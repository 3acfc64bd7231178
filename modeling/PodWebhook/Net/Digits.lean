/-!
Numbers at the front of a text: as many digits as there are, with or without a bound on their count.
-/

namespace PodWebhook.Net

/-- The value of a digit in a base of at most sixteen; letters of either case count from ten. -/
def digit? (base : Nat) (c : Char) : Option Nat :=
  let value :=
    if '0' ≤ c ∧ c ≤ '9' then some (c.toNat - '0'.toNat)
    else if 'a' ≤ c ∧ c ≤ 'f' then some (c.toNat - 'a'.toNat + 10)
    else if 'A' ≤ c ∧ c ≤ 'F' then some (c.toNat - 'A'.toNat + 10)
    else none
  value.filter (· < base)

def isDigit (base : Nat) (c : Char) : Bool := (digit? base c).isSome

def valueOf (base : Nat) (digits : List Char) : Nat :=
  digits.foldl (fun n c => base * n + (digit? base c).getD 0) 0

structure NumberForm where
  base : Nat
  maxDigits : Option Nat
  leadingZeros : Bool
  max : Nat
  deriving Repr

def readNumber (form : NumberForm) (text : List Char) : Option (Nat × List Char) :=
  let digits := text.takeWhile (isDigit form.base)
  let value := valueOf form.base digits
  if !digits.isEmpty ∧ form.maxDigits.all (digits.length ≤ ·) ∧
      (form.leadingZeros ∨ digits.length = 1 ∨ digits.head? ≠ some '0') ∧ value ≤ form.max then
    some (value, text.drop digits.length)
  else none

def readChar (c : Char) : List Char → Option (List Char)
  | d :: rest => if c = d then some rest else none
  | [] => none

end PodWebhook.Net
