import WellControl.Proofs.Group.Standing

/-! # Shares that add up to the target

The wells that share a target are those that ask for it.  Each counts with its guide rate, and its
fraction is this over the sum of the guide rates of all.  Where these come to more than the least
rate that counts, the fractions are a partition of one, and the shares, each for the time that its
well operates, one of what is left of the target (`ShareQuery.exists_partition`). -/
set_option autoImplicit false

namespace WellControl

namespace ShareQuery
variable {q : ShareQuery ℚ} {quantity : RateQuantity ℚ} {weight : Well ℚ → ℚ}

def about (q : ShareQuery ℚ) (w : Well ℚ) (rates : Grid ℚ) : ShareQuery ℚ :=
  { q with well := w.name, efficiency := w.header.efficiency, rates }

/-- The wells of the group that ask for the target, and no others, share it. -/
theorem mem_siblings {w : Well ℚ} :
    w ∈ q.siblings ↔ w ∈ q.schedule.wells.all ∧ w.groupName = q.group.name ∧
      w.demand = .ok q.demand := by
  rw [siblings, List.mem_filter, Wells.inGroup, List.mem_filter, decide_eq_true_eq, and_assoc]
  refine and_congr_right fun _ => and_congr_right fun _ => ?_
  cases w with
  | producer v => cases q.demand <;> simp [Well.demand]
  | injector v =>
    cases fluid : v.controls.fluid.phase? <;> cases q.demand <;>
      simp [Well.demand, Injector.phase, fluid]

/-- What each sibling counts with can be read, and is this. -/
def Weighed (q : ShareQuery ℚ) (quantity : RateQuantity ℚ) (weight : Well ℚ → ℚ) : Prop :=
  ∀ w ∈ q.siblings, q.guideRate quantity w.name = .ok (weight w)

namespace Weighed

theorem nonneg (weighed : q.Weighed quantity weight) {w : Well ℚ} (member : w ∈ q.siblings) :
    0 ≤ weight w :=
  guideRate_nonneg (weighed w member)

theorem le_total (weighed : q.Weighed quantity weight) {w : Well ℚ} (member : w ∈ q.siblings) :
    weight w ≤ (q.siblings.map weight).sum := by
  apply List.single_le_sum
  · intro x listed
    obtain ⟨v, member', rfl⟩ := List.mem_map.1 listed
    exact weighed.nonneg member'
  · exact List.mem_map_of_mem member

/-- The numerator of a well's fraction is the term that it has in the total. -/
theorem fraction_eq (weighed : q.Weighed quantity weight)
    (enough : q.constants.rateEpsilon.val < (q.siblings.map weight).sum) {w : Well ℚ}
    (member : w ∈ q.siblings) (rates : Grid ℚ) :
    (q.about w rates).fraction quantity = .ok (weight w / (q.siblings.map weight).sum) := by
  have weights : (q.about w rates).siblings.mapM
      (fun v => (q.about w rates).guideRate quantity v.name) = .ok (q.siblings.map weight) :=
    Outcome.mapM_eq_ok weighed
  have own : (q.about w rates).guideRate quantity (q.about w rates).well = .ok (weight w) :=
    weighed w member
  rw [fraction, weights, Outcome.ok_bind, Scalar.sum_eq, own]
  exact if_neg (not_le.2 enough)

end Weighed

structure Partition (q : ShareQuery ℚ) (quantity : RateQuantity ℚ) (fraction : Well ℚ → ℚ) :
    Prop where
  sharers : ∀ w, w ∈ q.siblings ↔ w ∈ q.schedule.wells.all ∧ w.groupName = q.group.name ∧
    w.demand = .ok q.demand
  shared : ∀ w ∈ q.siblings, ∀ rates, (q.about w rates).fraction quantity = .ok (fraction w)
  between : ∀ w ∈ q.siblings, 0 ≤ fraction w ∧ fraction w ≤ 1
  whole : (q.siblings.map fraction).sum = 1
  /-- A target is answered by comparing each well with its fraction of it. -/
  answered : ∀ target off reduction, q.Limits target quantity off →
    quantity (.ofList off) = .ok reduction → ∀ w ∈ q.siblings, ∀ rates current,
      quantity rates = .ok current →
      byGuideRate (q.about w rates) = .ok ((q.about w rates).compare current
        ((q.about w rates).allowance target reduction (fraction w)))
  /-- While all wells operate for their part of the time, they use up the target. -/
  exhausted : ∀ target reduction rates,
    (q.siblings.map fun w => w.header.efficiency.val *
      (q.about w rates).allowance target reduction (fraction w)).sum = max (target - reduction) 0

/-- In the time that a well operates it has its fraction of what is left of the target. -/
theorem efficiency_mul_allowance (target reduction fraction : ℚ) :
    q.efficiency.val * q.allowance target reduction fraction =
      max (target - reduction) 0 * fraction := by
  rw [allowance, Scalar.larger_eq_max]
  exact mul_div_cancel₀ _ q.efficiency.2.1.ne'

theorem Limits.about {target : ℚ} {off : List ℚ} (limits : q.Limits target quantity off)
    (w : Well ℚ) (rates : Grid ℚ) : (q.about w rates).Limits target quantity off := by
  cases limits with
  | production demand group applies measured => exact .production demand group applies measured
  | injection demand group applies measured => exact .injection demand group applies measured

/-- If the guide rates of the wells that share a target come to more than the least rate that
counts, the fractions of these wells partition the target. -/
theorem exists_partition (weighed : q.Weighed quantity weight)
    (enough : q.constants.rateEpsilon.val < (q.siblings.map weight).sum) :
    ∃ fraction, q.Partition quantity fraction := by
  have positive : 0 < (q.siblings.map weight).sum := q.constants.rateEpsilon.2.trans_lt enough
  have whole : (q.siblings.map fun w => weight w / (q.siblings.map weight).sum).sum = 1 := by
    simp only [div_eq_mul_inv, List.sum_map_mul_right]
    exact mul_inv_cancel₀ positive.ne'
  refine ⟨fun w => weight w / (q.siblings.map weight).sum, fun _ => mem_siblings, ?_, ?_, whole,
    ?_, ?_⟩
  · intro w member rates
    exact weighed.fraction_eq enough member rates
  · intro w member
    exact ⟨div_nonneg (weighed.nonneg member) positive.le,
      (div_le_one positive).2 (weighed.le_total member)⟩
  · intro target off reduction limits reduced w member rates current measured
    rw [byGuideRate_of_limits (limits.about w rates), settle, reduced, Outcome.ok_bind,
      weighed.fraction_eq enough member rates, Outcome.ok_bind]
    change quantity rates >>= _ = _
    rw [measured]
    rfl
  · intro target reduction rates
    calc (q.siblings.map fun w => w.header.efficiency.val * (q.about w rates).allowance target
            reduction (weight w / (q.siblings.map weight).sum)).sum
        = (q.siblings.map fun w =>
            max (target - reduction) 0 * (weight w / (q.siblings.map weight).sum)).sum := by
          congr 1
          exact List.map_congr_left fun w _ => (q.about w rates).efficiency_mul_allowance _ _ _
      _ = max (target - reduction) 0 := by
          rw [List.sum_map_mul_left, whole, mul_one]

end ShareQuery

section Mixed

/-- A group with an oil target, of which something is taken off, four producers and an injector.
Two producers have guide rates, one of them negative; of the others only one has a state. -/
def mixedQuery : ShareQuery ℚ :=
  let group : WellGroup ℚ :=
    ⟨"G", none, some ⟨.orat, some ⟨120, by decide +kernel⟩, none, none, none, none⟩, .empty⟩
  let half : Producer ℚ :=
    { Producer.plain "P" "G" with efficiency := ⟨1 / 2, by decide +kernel⟩ }
  let injector : Injector ℚ :=
    { WellHeader.plain "I" "G" with controls := .free .oil }
  let setting := Setting.ofGroup group [half, .plain "Q" "G", .plain "R" "G", .plain "S" "G"]
  let schedule :=
    { setting.schedule with wells := { setting.schedule.wells with injectors := [injector] } }
  { Evaluator.plain (.producer half) with
    guideRates := some ((Catalog.empty.put "P" 3).put "Q" (-1)) }.shareQuery
      ⟨schedule, ⟨Catalog.empty.put "G" [0, 20, 0], .empty⟩⟩ .standard
      (.ofStates [.flowing "P" (0, -90, 0) [], .flowing "Q" (0, -90, 0) [],
        .flowing "R" (-1, -5, -1) []])
      (.ofList [0, -90, 0]) group .production [1, 1, 1]

/-- The wells count with three, nothing, five and nothing. -/
theorem mixed_partition :
    let quantity : RateQuantity ℚ := fun rates => do
      return -(← PhaseTable.blackOil.rateOrZero rates.line .oil)
    let weight : Well ℚ → ℚ := fun w => if w.name = "P" then 3 else if w.name = "R" then 5 else 0
    mixedQuery.Weighed quantity weight ∧
    mixedQuery.constants.rateEpsilon.val < (mixedQuery.siblings.map weight).sum ∧
    (mixedQuery.siblings.map fun w => (mixedQuery.about w mixedQuery.rates).fraction quantity) =
      [.ok (3 / 8), .ok 0, .ok (5 / 8), .ok 0] ∧
    ∃ fraction, mixedQuery.Partition quantity fraction := by
  intro quantity weight
  have weighed : mixedQuery.Weighed quantity weight := by
    unfold ShareQuery.Weighed
    decide +kernel
  have enough : mixedQuery.constants.rateEpsilon.val < (mixedQuery.siblings.map weight).sum := by
    decide +kernel
  exact ⟨weighed, enough, by decide +kernel, ShareQuery.exists_partition weighed enough⟩

end Mixed
end WellControl
