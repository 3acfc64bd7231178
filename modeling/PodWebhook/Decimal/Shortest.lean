/-!
The shortest decimal that reads back as a given double. A positive double is `m * 2 ^ q`; every real
strictly between its two neighbours' midpoints rounds to it, and the midpoints themselves do when
`m` is even. Of the decimals in that interval those with the fewest digits are taken, and of these
the one nearest to the double; a tie between two is settled as the caller says.
-/

namespace PodWebhook.Decimal

/-- A positive decimal `digits * 10 ^ exponent`. -/
structure Scientific where
  digits : Nat
  exponent : Int
  deriving DecidableEq, Repr

inductive Tie where
  | even
  | up
  deriving DecidableEq, Repr

def Scientific.positional (x : Scientific) : String :=
  let digits := Nat.repr x.digits
  let top : Int := digits.length + x.exponent
  if 0 ≤ x.exponent then digits ++ String.ofList (List.replicate x.exponent.toNat '0')
  else if 0 < top then
    String.ofList (digits.toList.take top.toNat) ++ "." ++
      String.ofList (digits.toList.drop top.toNat)
  else "0." ++ String.ofList (List.replicate (-top).toNat '0') ++ digits

/-- A finite positive double `significand * 2 ^ exponent`. -/
structure Binary where
  significand : Nat
  exponent : Int
  deriving DecidableEq, Repr

namespace Binary

def ofBits (bits : UInt64) : Binary :=
  let fraction : Nat := bits.toNat % 0x10000000000000
  let field : Nat := bits.toNat / 0x10000000000000 % 0x800
  if field = 0 then ⟨fraction, -1074⟩ else ⟨0x10000000000000 + fraction, field - 1075⟩

/-- The gap below a power of two is half the gap above it. -/
def narrowBelow (x : Binary) : Bool :=
  x.significand == 0x10000000000000 && x.exponent != -1074

/-- Compares `a * 10 ^ e` with `b * 2 ^ q`. -/
def compareScaled (a : Nat) (e : Int) (b : Nat) (q : Int) : Ordering :=
  compare (a * Nat.pow 10 e.toNat * Nat.pow 2 (-q).toNat)
    (b * Nat.pow 2 q.toNat * Nat.pow 10 (-e).toNat)

def covers (x : Binary) (digits : Nat) (e : Int) : Bool :=
  let low := 4 * x.significand - (if x.narrowBelow then 1 else 2)
  let high := 4 * x.significand + 2
  let closed := x.significand % 2 == 0
  let below := compareScaled digits e low (x.exponent - 2)
  let above := compareScaled digits e high (x.exponent - 2)
  (below == .gt || (closed && below == .eq)) && (above == .lt || (closed && above == .eq))

def floorAt (x : Binary) (e : Int) : Nat :=
  x.significand * Nat.pow 2 x.exponent.toNat * Nat.pow 10 (-e).toNat /
    (Nat.pow 2 (-x.exponent).toNat * Nat.pow 10 e.toNat)

/-- The double is less than `10 ^ magnitude` and at least a tenth of it. -/
def magnitude (x : Binary) : Int :=
  (Nat.repr (x.floorAt (-400))).length - 400

/-- Whether `(d + 1) * 10 ^ e` is taken rather than `d * 10 ^ e`: it lies nearer to the double, or
wins the tie. -/
def prefersNext (x : Binary) (tie : Tie) (d : Nat) (e : Int) : Bool :=
  match compareScaled (2 * d + 1) e x.significand (x.exponent + 1) with
  | .lt => true
  | .gt => false
  | .eq => tie == .up || d % 2 == 1

def onGrid? (x : Binary) (tie : Tie) (e : Int) : Option Nat :=
  let d := x.floorAt e
  match x.covers d e, x.covers (d + 1) e with
  | true, true => some (if x.prefersNext tie d e then d + 1 else d)
  | true, false => some d
  | false, true => some (d + 1)
  | false, false => none

end Binary

def Scientific.normalize : Nat → Scientific → Scientific
  | 0, x => x
  | fuel + 1, x =>
    if x.digits ≠ 0 ∧ x.digits % 10 = 0 then normalize fuel ⟨x.digits / 10, x.exponent + 1⟩ else x

/-- Tries ever finer grids; seventeen digits always suffice. -/
def shortestFrom (tie : Tie) (x : Binary) (top : Int) : (left count : Nat) → Scientific
  | 0, count => ⟨x.floorAt (top - count), top - count⟩
  | left + 1, count =>
    match x.onGrid? tie (top - count) with
    | some d => (⟨d, top - count⟩ : Scientific).normalize 20
    | none => shortestFrom tie x top left (count + 1)

def shortest (tie : Tie) (x : Binary) : Scientific :=
  shortestFrom tie x x.magnitude 17 1

end PodWebhook.Decimal
