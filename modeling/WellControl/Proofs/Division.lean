import Mathlib.Tactic.Linarith
import WellControl.Group.Share
import WellControl.Economic.WorstCompletion
import WellControl.Proofs.Exact
import WellControl.Proofs.Outcome
import WellControl.Voidage

/-! # Divisions of an evaluation

In exact arithmetic a quotient by zero is zero, so a division that should not have been made would
go unnoticed.  Here every definition that divides is followed with a division that refuses zero
(`Scalar.divide?`).  It gives the same as before: conversions divide by the determinant of a region,
shares by weights and rates above a tolerance and by the efficiency, ratios by rates that flow, and
extents by limits that are on. -/
set_option autoImplicit false

namespace WellControl

def Scalar.divide? (x y : ℚ) : Option ℚ := if y = 0 then none else some (x / y)

theorem Scalar.divide?_eq {y : ℚ} (nonzero : y ≠ 0) (x : ℚ) : divide? x y = some (x / y) :=
  if_neg nonzero

open Scalar

section Conversion

namespace FormationVolume

def phaseVoidage? (c : FormationVolume ℚ) (r : Region ℚ) (rates : List ℚ) : Phase → Option ℚ
  | .water => some (c.table.entry rates .water * r.waterFactor.val)
  | .oil =>
    divide?
      ((c.table.entry rates .oil - c.vaporized r * c.table.entry rates .gas) * r.oilFactor.val)
      (c.determinant r)
  | .gas =>
    divide?
      ((c.table.entry rates .gas - c.dissolved r * c.table.entry rates .oil) * r.gasFactor.val)
      (c.determinant r)

def phaseCoefficient? (c : FormationVolume ℚ) (r : Region ℚ) : Phase → Option ℚ
  | .water => some r.waterFactor.val
  | .oil => divide? (r.oilFactor.val - c.dissolved r * r.gasFactor.val) (c.determinant r)
  | .gas => divide? (r.gasFactor.val - c.vaporized r * r.oilFactor.val) (c.determinant r)

theorem determinant_ne_zero (c : FormationVolume ℚ) (r : Region ℚ) : c.determinant r ≠ 0 := by
  have separable := r.separable
  unfold determinant dissolved vaporized
  split <;> intro zero <;> linarith

theorem phaseVoidage?_eq (c : FormationVolume ℚ) (r : Region ℚ) (rates : List ℚ) (p : Phase) :
    c.phaseVoidage? r rates p = some (c.phaseVoidage r rates p) := by
  cases p with
  | water => rfl
  | oil | gas => exact divide?_eq (c.determinant_ne_zero r) _

theorem phaseCoefficient?_eq (c : FormationVolume ℚ) (r : Region ℚ) (p : Phase) :
    c.phaseCoefficient? r p = some (c.phaseCoefficient r p) := by
  cases p with
  | water => rfl
  | oil | gas => exact divide?_eq (c.determinant_ne_zero r) _

end FormationVolume
end Conversion

section Shares

namespace ShareQuery
variable (q : ShareQuery ℚ)

def fraction? (quantity : RateQuantity ℚ) : Outcome ℚ (Option ℚ) := do
  let total := Scalar.sum (← q.siblings.mapM fun w => q.guideRate quantity w.name)
  if total ≤ q.constants.rateEpsilon.val then return some 1
  else return divide? (← q.guideRate quantity q.well) total

def allowance? (target reduction fraction : ℚ) : Option ℚ :=
  divide? (larger (target - reduction) 0 * fraction) q.efficiency.val

def compare? (current allowed : ℚ) : Option (Share ℚ) :=
  if current ≤ q.constants.rateEpsilon.val ∨ current ≤ allowed then some .kept
  else (divide? allowed current).map fun factor => ⟨true, factor⟩

def settle? (target : ℚ) (quantity : RateQuantity ℚ) (off : List ℚ) :
    Outcome ℚ (Option (Share ℚ)) := do
  let reduction ← quantity (Grid.ofList off)
  let fraction ← q.fraction? quantity
  let current ← quantity q.rates
  return (fraction.bind (q.allowance? target reduction)).bind (q.compare? current)

theorem ne_zero_of_above {x : ℚ} (above : ¬ x ≤ q.constants.rateEpsilon.val) : x ≠ 0 :=
  ((q.constants.rateEpsilon.2).trans_lt (not_le.1 above)).ne'

theorem fraction?_eq (quantity : RateQuantity ℚ) :
    q.fraction? quantity = some <$> q.fraction quantity := by
  unfold fraction? fraction
  cases q.siblings.mapM fun w => q.guideRate quantity w.name with
  | error f => rfl
  | ok weights =>
    simp only [Outcome.ok_bind]
    split
    · rfl
    · rename_i above
      cases q.guideRate quantity q.well with
      | error f => rfl
      | ok own =>
        simp only [Outcome.ok_bind, divide?_eq (q.ne_zero_of_above above)]
        rfl

theorem allowance?_eq (target reduction fraction : ℚ) :
    q.allowance? target reduction fraction = some (q.allowance target reduction fraction) :=
  divide?_eq q.efficiency.2.1.ne' _

theorem compare?_eq (current allowed : ℚ) :
    q.compare? current allowed = some (q.compare current allowed) := by
  unfold compare? compare
  split
  · rfl
  · rename_i beyond
    rw [divide?_eq (q.ne_zero_of_above fun below => beyond (.inl below))]
    rfl

theorem settle?_eq (target : ℚ) (quantity : RateQuantity ℚ) (off : List ℚ) :
    q.settle? target quantity off = some <$> q.settle target quantity off := by
  unfold settle? settle
  cases quantity (Grid.ofList off) with
  | error f => rfl
  | ok reduction =>
    rw [fraction?_eq]
    cases q.fraction quantity with
    | error f => rfl
    | ok fraction =>
      cases quantity q.rates with
      | error f => rfl
      | ok current =>
        change Except.ok ((q.allowance? target reduction fraction).bind (q.compare? current)) = _
        rw [allowance?_eq, Option.bind_some, compare?_eq]
        rfl

end ShareQuery
end Shares

section Ratios

namespace RatioKind

def quotient? (c : Constants ℚ) (numerator denominator : ℚ) : Option ℚ :=
  if denominator != 0 then divide? numerator denominator
  else if numerator != 0 then some c.ratioSentinel.val
  else some 0

def cut? (oil water : ℚ) : Option ℚ :=
  let liquid := oil + water
  if liquid != 0 then divide? water liquid else some 0

def ratio? (k : RatioKind) (c : Constants ℚ) (t : PhaseTable) (rates : List ℚ) :
    Outcome ℚ (Option ℚ) := do
  let first ← t.rate rates k.phases.1
  let second ← t.rate rates k.phases.2
  if 0 ≤ first * second then
    match k with
    | waterCut => return cut? first second
    | gasOil | waterGas => return quotient? c first second
  else throw .opposedRates

theorem quotient?_eq (c : Constants ℚ) (numerator denominator : ℚ) :
    quotient? c numerator denominator = some (quotient c numerator denominator) := by
  unfold quotient? quotient
  split
  · rename_i flows
    exact divide?_eq (bne_iff_ne.1 flows) numerator
  · split <;> rfl

theorem cut?_eq (oil water : ℚ) : cut? oil water = some (cut oil water) := by
  simp only [cut?, cut]
  split
  · rename_i flows
    exact divide?_eq (bne_iff_ne.1 flows) water
  · rfl

theorem ratio?_eq (k : RatioKind) (c : Constants ℚ) (t : PhaseTable) (rates : List ℚ) :
    k.ratio? c t rates = some <$> k.ratio c t rates := by
  unfold ratio? ratio
  cases t.rate rates k.phases.1 with
  | error f => rfl
  | ok first =>
    cases t.rate rates k.phases.2 with
    | error f => rfl
    | ok second =>
      simp only [Outcome.ok_bind]
      split
      · cases k <;> simp only [cut?_eq, quotient?_eq] <;> rfl
      · rfl

end RatioKind

namespace RatioSource

def enter? (report : RatioReport ℚ) (limit : ℚ) (best : Highest ℚ) :
    Option (Outcome ℚ (RatioReport ℚ)) :=
  if limit < best.ratio ∧ best.completion ≠ noCompletion then
    (divide? best.ratio limit).map fun extent =>
      if 1 < extent then
        if report.extent < extent then
          .ok { report with worst := best.completion, extent }
        else .ok report
      else .error .brokenExpectation
  else some (.error .brokenExpectation)

theorem enter?_eq (report : RatioReport ℚ) {limit : ℚ} (positive : 0 < limit)
    (best : Highest ℚ) : enter? report limit best = some (enter report limit best) := by
  unfold enter? enter
  rw [divide?_eq positive.ne']
  by_cases above : limit < best.ratio ∧ best.completion ≠ noCompletion
  · rw [if_pos above, Option.map_some]
    obtain ⟨higher, named⟩ := above
    simp only [higher, named, ne_eq, not_false_eq_true, true_and]
  · have refused : ¬ (limit < best.ratio ∧ best.completion ≠ noCompletion ∧
        1 < best.ratio / limit) := fun all => above ⟨all.1, all.2.1⟩
    rw [if_neg above, if_neg refused]

end RatioSource
end Ratios

/-- Wherever an evaluation divides, a division that refuses zero gives the same. -/
structure DivisionsDefined : Prop where
  conversion : ∀ (c : FormationVolume ℚ) r rates p,
    c.phaseVoidage? r rates p = some (c.phaseVoidage r rates p) ∧
      c.phaseCoefficient? r p = some (c.phaseCoefficient r p)
  share : ∀ (q : ShareQuery ℚ) target quantity off,
    q.settle? target quantity off = some <$> q.settle target quantity off
  ratio : ∀ (k : RatioKind) c t rates, k.ratio? c t rates = some <$> k.ratio c t rates
  /-- Extents are compared with limits that are on. -/
  extent : ∀ (limit active : NonNegative ℚ) report best,
    EconomicLimits.active? (some limit) = some active →
      RatioSource.enter? report active.val best = some (RatioSource.enter report active.val best)

theorem divisionsDefined : DivisionsDefined where
  conversion c r rates p := ⟨c.phaseVoidage?_eq r rates p, c.phaseCoefficient?_eq r p⟩
  share q target quantity off := q.settle?_eq target quantity off
  ratio k c t rates := k.ratio?_eq c t rates
  extent limit active report best on := by
    have positive := (Option.filter_eq_some_iff.1 on).2
    exact RatioSource.enter?_eq report (of_decide_eq_true positive) best

end WellControl
