import Mathlib.Algebra.BigOperators.Ring.List
import Mathlib.Algebra.Order.Field.Basic
import Mathlib.Tactic.Linarith
import WellControl.Proofs.Economic.OwnRates
import WellControl.Proofs.Exact

/-! # A ratio of sums is no higher than the highest ratio

For rates that flow the same way, a ratio is above a limit exactly when one rate is beyond the limit
times another (`RatioKind.lt_value_iff`), rates that do not flow included.  Such an inequality
between sums holds of some summand. -/
set_option autoImplicit false

namespace WellControl

theorem PhaseTable.exists_rate_ofFn {α : Type} {t : PhaseTable} {p : Phase} (has : t.has p = true) :
    ∃ i : Fin t.size, ∀ f : Fin t.size → α, t.rate (List.ofFn f) p = .ok (f i) := by
  have listed : p ∈ t.active := of_decide_eq_true has
  obtain ⟨i, located⟩ := Option.isSome_iff_exists.1 (List.isSome_idxOf?.2 listed)
  obtain ⟨inside, _⟩ := List.idxOf?_eq_some_iff.1 located
  refine ⟨⟨i, inside⟩, fun f => ?_⟩
  have entry : (List.ofFn f)[i]? = some (f ⟨i, inside⟩) := by
    rw [List.getElem?_eq_getElem (by rw [List.length_ofFn]; exact inside), List.getElem_ofFn]
  simp only [rate, position, located, Outcome.ok_bind, entry]

namespace RatioKind

def value (k : RatioKind) (c : Constants ℚ) (first second : ℚ) : ℚ :=
  match k with
  | waterCut => cut first second
  | gasOil | waterGas => quotient c first second

/-- What a ratio counts, and what it counts it by. -/
def parts (k : RatioKind) (first second : ℚ) : ℚ × ℚ :=
  match k with
  | waterCut => (second, first + second)
  | gasOil | waterGas => (first, second)

theorem quotient_eq (c : Constants ℚ) (x y : ℚ) :
    quotient c x y = if y = 0 then if x = 0 then 0 else c.ratioSentinel.val else x / y := by
  unfold quotient
  split_ifs <;> simp_all

theorem cut_eq (oil water : ℚ) :
    cut oil water = if oil + water = 0 then 0 else water / (oil + water) := by
  unfold cut
  split_ifs <;> simp_all

theorem ratio_eq (k : RatioKind) (c : Constants ℚ) (t : PhaseTable) (rates : List ℚ) :
    k.ratio c t rates = t.rate rates k.phases.1 >>= fun first =>
      t.rate rates k.phases.2 >>= fun second =>
        if 0 ≤ first * second then .ok (k.value c first second) else .error .opposedRates := by
  cases k <;> rfl

theorem ratio_eq_value {k : RatioKind} {c : Constants ℚ} {t : PhaseTable} {rates : List ℚ}
    {first second : ℚ} (firstFound : t.rate rates k.phases.1 = .ok first)
    (secondFound : t.rate rates k.phases.2 = .ok second) (same : 0 ≤ first * second) :
    k.ratio c t rates = .ok (k.value c first second) := by
  rw [ratio_eq, firstFound, Outcome.ok_bind, secondFound, Outcome.ok_bind, if_pos same]

theorem exists_ratio_ofFn {k : RatioKind} {t : PhaseTable}
    (active : (t.has k.phases.1 && t.has k.phases.2) = true) :
    ∃ i j : Fin t.size, ∀ (c : Constants ℚ) (f : Fin t.size → ℚ), (∀ m, f m ≤ 0) →
      k.ratio c t (List.ofFn f) = .ok (k.value c (f i) (f j)) := by
  obtain ⟨hasFirst, hasSecond⟩ := Bool.and_eq_true_iff.1 active
  obtain ⟨i, firstFound⟩ := @PhaseTable.exists_rate_ofFn ℚ _ _ hasFirst
  obtain ⟨j, secondFound⟩ := @PhaseTable.exists_rate_ofFn ℚ _ _ hasSecond
  refine ⟨i, j, fun c f producing => ?_⟩
  exact ratio_eq_value (firstFound f) (secondFound f)
    (mul_nonneg_of_nonpos_of_nonpos (producing i) (producing j))

/-- For rates of production a ratio is above a limit below the sentinel exactly when its one part
is beyond the limit times the other. -/
theorem lt_value_iff (k : RatioKind) {c : Constants ℚ} {first second limit : ℚ}
    (firstProducing : first ≤ 0) (secondProducing : second ≤ 0) (positive : 0 < limit)
    (bounded : limit < c.ratioSentinel.val) :
    limit < k.value c first second ↔
      (k.parts first second).1 < limit * (k.parts first second).2 := by
  have by_quotient : limit < quotient c first second ↔ first < limit * second := by
    rw [quotient_eq]
    split_ifs with still none
    · subst still none
      simp [not_lt.2 positive.le]
    · subst still
      rw [mul_zero]
      exact ⟨fun _ => lt_of_le_of_ne firstProducing none, fun _ => bounded⟩
    · exact lt_div_iff_of_neg (lt_of_le_of_ne secondProducing still)
  cases k with
  | waterCut =>
    simp only [value, parts, cut_eq]
    split_ifs with still
    · have none : second = 0 := by linarith
      rw [still, none, mul_zero]
      simp [not_lt.2 positive.le]
    · exact lt_div_iff_of_neg (lt_of_le_of_ne (add_nonpos firstProducing secondProducing) still)
  | gasOil => exact by_quotient
  | waterGas => exact by_quotient

theorem parts_scaled_sum (k : RatioKind) {ι : Type} (es : List ι) (x y : ι → ℚ) (scale : ℚ) :
    k.parts (scale * (es.map x).sum) (scale * (es.map y).sum) =
      (scale * (es.map fun e => (k.parts (x e) (y e)).1).sum,
        scale * (es.map fun e => (k.parts (x e) (y e)).2).sum) := by
  cases k with
  | waterCut => simp only [parts, List.sum_map_add, mul_add]
  | gasOil => rfl
  | waterGas => rfl

/-- Where rates of production add up to a ratio above a limit, so does one of them. -/
theorem exists_lt_value (k : RatioKind) {c : Constants ℚ} {ι : Type} {es : List ι} {x y : ι → ℚ}
    {scale limit : ℚ} (xProducing : ∀ e ∈ es, x e ≤ 0) (yProducing : ∀ e ∈ es, y e ≤ 0)
    (scaled : 0 < scale) (positive : 0 < limit) (bounded : limit < c.ratioSentinel.val)
    (above : limit < k.value c (scale * (es.map x).sum) (scale * (es.map y).sum)) :
    ∃ e ∈ es, limit < k.value c (x e) (y e) := by
  have sum_nonpos : ∀ z : ι → ℚ, (∀ e ∈ es, z e ≤ 0) → scale * (es.map z).sum ≤ 0 := by
    intro z producing
    exact mul_nonpos_of_nonneg_of_nonpos scaled.le (Scalar.sum_map_nonpos producing)
  rw [lt_value_iff k (sum_nonpos x xProducing) (sum_nonpos y yProducing) positive bounded,
    parts_scaled_sum, mul_left_comm, mul_lt_mul_iff_right₀ scaled, ← List.sum_map_mul_left] at above
  obtain ⟨e, among, beyond⟩ := List.exists_lt_of_sum_lt _ _ above
  exact ⟨e, among,
    (lt_value_iff k (xProducing e among) (yProducing e among) positive bounded).2 beyond⟩

end RatioKind
end WellControl
