/-!
# Shortest decimals

The shortest decimal of a positive binary number is the one with the fewest digits among those
that read back as the number; of several, the nearest.  All of it is exact arithmetic on
natural numbers.
-/

set_option autoImplicit false

namespace WellControl.Text

/-- The number `digits * 10 ^ exponent`. -/
structure Decimal where
  digits : Nat
  exponent : Int
deriving DecidableEq, Repr

/-- The positive rationals that read back as a binary number: `low`, `mid` and `high` over a
common denominator, the ends included iff `closed`. -/
structure ReadsBack where
  low : Nat
  mid : Nat
  high : Nat
  denominator : Nat
  closed : Bool

namespace ReadsBack

/-- The interval around `mantissa * 2 ^ exponent`.  Below a power of two the neighbours lie half
as far apart, unless it is the least exponent. -/
def around (mantissa : Nat) (exponent : Int) (half : Bool) : ReadsBack :=
  let scale := Nat.pow 2 (exponent - 2).toNat
  { low := (4 * mantissa - if half then 1 else 2) * scale
    mid := 4 * mantissa * scale
    high := (4 * mantissa + 2) * scale
    denominator := Nat.pow 2 (2 - exponent).toNat
    closed := mantissa % 2 == 0 }

def shift (r : ReadsBack) (k : Int) : ReadsBack :=
  let up := Nat.pow 10 k.toNat
  { r with
    low := r.low * up
    mid := r.mid * up
    high := r.high * up
    denominator := r.denominator * Nat.pow 10 (-k).toNat }

def contains (r : ReadsBack) (n : Nat) : Bool :=
  let x := n * r.denominator
  if r.closed then r.low ≤ x && x ≤ r.high else r.low < x && x < r.high

/-- Largest `e` with `10 ^ e` at most the middle. -/
def magnitude (r : ReadsBack) : Int :=
  if r.denominator ≤ r.mid then (Nat.toDigits 10 (r.mid / r.denominator)).length - 1
  else -((Nat.toDigits 10 ((r.denominator - 1) / r.mid)).length : Int)

/-- The whole number in the interval that is nearest to its middle, an even one on a tie. -/
def nearest? (r : ReadsBack) : Option Nat :=
  let below := r.mid / r.denominator
  let above := below + 1
  let rest := 2 * (r.mid % r.denominator)
  match r.contains below, r.contains above with
  | true, true =>
    if rest < r.denominator || (rest == r.denominator && below % 2 == 0) then some below
    else some above
  | true, false => some below
  | false, true => some above
  | false, false => none

/-- The first hit on the grids with `places`, `places + 1`, … digits. -/
def search (r : ReadsBack) (top : Int) : (grids places : Nat) → Decimal
  | 0, places => ⟨r.mid / r.denominator, top - places⟩
  | grids + 1, places =>
    let unit : Int := top - (places - 1)
    match (r.shift (-unit)).nearest? with
    | some n => ⟨n, unit⟩
    | none => search r top grids (places + 1)

end ReadsBack

/-- Drop zeros at the end, as many as there are among the last `fuel` digits. -/
def Decimal.trim : (fuel : Nat) → Decimal → Decimal
  | 0, d => d
  | fuel + 1, d =>
    if d.digits % 10 = 0 then Decimal.trim fuel ⟨d.digits / 10, d.exponent + 1⟩ else d

/-- Seventeen digits always read back. -/
def shortest (mantissa : Nat) (exponent : Int) (half : Bool) : Decimal :=
  let r := ReadsBack.around mantissa exponent half
  (r.search r.magnitude 17 1).trim 17

end WellControl.Text
