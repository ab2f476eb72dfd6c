import Mathlib.Algebra.BigOperators.Group.List.Basic
import Mathlib.Algebra.Order.BigOperators.Group.List
import Mathlib.Algebra.Order.Field.Rat
import WellControl.Scalar

/-! # Exact arithmetic

On rational numbers the operations of `Scalar` are the usual ones. -/
set_option autoImplicit false

namespace WellControl.Scalar

theorem sum_eq (xs : List ℚ) : sum xs = xs.sum := by
  rw [sum, List.sum_eq_foldl]

theorem dot_eq (xs ys : List ℚ) : dot xs ys = (List.zipWith (· * ·) xs ys).sum := by
  unfold dot
  split
  · rename_i product single
    rw [single, List.sum_singleton]
  · exact sum_eq _

theorem sum_map_nonpos {ι : Type} {xs : List ι} {x : ι → ℚ} (nonpos : ∀ i ∈ xs, x i ≤ 0) :
    (xs.map x).sum ≤ 0 := by
  have bound := List.sum_le_card_nsmul (xs.map x) 0 (by
    intro value listed
    obtain ⟨i, among, rfl⟩ := List.mem_map.1 listed
    exact nonpos i among)
  rwa [nsmul_zero] at bound

end WellControl.Scalar
