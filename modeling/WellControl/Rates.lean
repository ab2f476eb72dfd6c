import WellControl.Grid
import WellControl.Scalar

/-!
# Sums of rate arrays

Rates are added phase by phase.  A single rate counts for every phase, so `Rates.add` asks that
the arrays be of one length only where the second has several entries.
-/

set_option autoImplicit false

namespace WellControl
namespace Rates
variable {α : Type} [Scalar α]

/-- Add an array, or a single rate to all entries. -/
def add (xs ys : List α) : Outcome α (List α) :=
  match ys with
  | [y] => .ok (xs.map (· + y))
  | ys =>
    if xs.length = ys.length then .ok (List.zipWith (· + ·) xs ys) else .error .misaligned

/-- Add what stands at one place of an array: a row of rates or a bare number. -/
def addPart (xs : List α) (part : Grid α) : Outcome α (List α) :=
  if part.shape.length ≤ 1 then add xs part.entries else .error .misaligned

theorem add_of_length_eq {xs ys : List α} (alike : xs.length = ys.length) :
    add xs ys = .ok (List.zipWith (· + ·) xs ys) := by
  match ys with
  | [] => simp [add, alike]
  | [y] =>
    obtain ⟨x, rfl⟩ := List.length_eq_one_iff.1 alike
    rfl
  | _ :: _ :: _ => simp [add, alike]

end Rates
end WellControl
