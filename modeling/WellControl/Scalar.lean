/-!
# Numbers of a field model

Every rate, pressure and limit is a number of one type.  The library is written over the
class `Scalar`, so that the definitions that run on binary floating point are the ones that
are reasoned about in exact rational arithmetic.

Comparisons are the number type's own.  A floating-point not-a-number is neither below, nor
above, nor equal to anything, and no definition here assumes that two numbers compare.
-/

set_option autoImplicit false

namespace WellControl

/-- Arithmetic and decidable comparison.  The two laws place the decimals that a model starts
from: the ratio that stands for "unbounded" is positive, the rate that counts as none is not
negative. -/
class Scalar (α : Type) extends Zero α, One α, Add α, Sub α, Mul α, Div α, Neg α,
    LT α, LE α, BEq α, OfScientific α where
  decidableLT : DecidableLT α
  decidableLE : DecidableLE α
  unbounded_pos : (0 : α) < 1e100
  negligible_nonneg : (0 : α) ≤ 1e-12

attribute [reducible, instance] Scalar.decidableLT Scalar.decidableLE

instance : Scalar Float where
  zero := 0.0
  one := 1.0
  decidableLT := inferInstance
  decidableLE := inferInstance
  unbounded_pos := by decide +kernel
  negligible_nonneg := by decide +kernel

instance : Scalar Rat where
  toZero := @Zero.ofOfNat0 Rat Rat.instOfNat
  toOne := @One.ofOfNat1 Rat Rat.instOfNat
  decidableLT := inferInstance
  decidableLE := inferInstance
  unbounded_pos := by decide +kernel
  negligible_nonneg := by decide +kernel

namespace Scalar
variable {α : Type} [Scalar α]

/-- The second number if it is above the first, else the first. -/
def larger (a b : α) : α := if a < b then b else a

def magnitude (a : α) : α := if a < 0 then -a else a

/-- Sum from the left, starting from zero. -/
def sum (xs : List α) : α := xs.foldl (· + ·) 0

/-- Sum of the products of corresponding entries.  A single product stands for itself. -/
def dot (xs ys : List α) : α :=
  match List.zipWith (· * ·) xs ys with
  | [product] => product
  | products => sum products

end Scalar
end WellControl
