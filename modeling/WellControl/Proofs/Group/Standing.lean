import Mathlib.Algebra.Order.Field.Basic
import WellControl.Proofs.Control.Frame
import WellControl.Proofs.Group.CurrentRates

/-! # Cuts that land on the share

A well is compared with its share in the quantity that its group's target limits, while the cut is
made in its rates.  As the quantity is scaled with the rates, whatever the mode of the target, a
well that is put under group control has exactly its share afterwards
(`Evaluator.groupSwitch_lands_on_share`). -/
set_option autoImplicit false

namespace WellControl

/-! ## Where a well stands -/

namespace ShareQuery

/-- A target of the group that applies to what the well does, the quantity that it limits, and the
rates that are taken off it. -/
inductive Limits (q : ShareQuery ℚ) : ℚ → RateQuantity ℚ → List ℚ → Prop
  | production {controls : ProductionTarget ℚ} {target : NonNegative ℚ} {quantity : RateQuantity ℚ}
      (demand : q.demand = .production) (group : q.group.production = some controls)
      (applies : controls.target? = some target)
      (measured : productionQuantity controls.mode q.table q.coefficients = .ok quantity) :
      Limits q target.val quantity
        ((Reductions.off q.reductions.production q.group.name q.table).map fun x => -x)
  | injection {p : Phase} {controls : InjectionTarget ℚ} {target : NonNegative ℚ}
      {quantity : RateQuantity ℚ} (demand : q.demand = .injection p)
      (group : q.group.injection.get? p = some controls)
      (applies : controls.target? = some target)
      (measured : injectionQuantity controls.mode p q.table q.coefficients = .ok quantity) :
      Limits q target.val quantity (Reductions.off q.reductions.injection q.group.name q.table)

/-- What a well is compared with, where a target applies. -/
structure Standing (q : ShareQuery ℚ) where
  target : ℚ
  quantity : RateQuantity ℚ
  off : List ℚ
  reduction : ℚ
  fraction : ℚ
  current : ℚ
  limits : q.Limits target quantity off
  reduced : quantity (.ofList off) = .ok reduction
  shared : q.fraction quantity = .ok fraction
  measured : quantity q.rates = .ok current

variable {q : ShareQuery ℚ} {target : ℚ} {quantity : RateQuantity ℚ} {off : List ℚ}

def Standing.share (st : q.Standing) : ℚ :=
  max (st.target - st.reduction) 0 * st.fraction / q.efficiency.val

theorem Limits.scale (limits : q.Limits target quantity off) {rates : Grid ℚ} {x : ℚ}
    (read : quantity rates = .ok x) (factor : ℚ) :
    quantity (rates.map (· * factor)) = .ok (x * factor) := by
  cases limits with
  | production _ _ _ measured => exact productionQuantity_scale measured read factor
  | injection _ _ _ measured => exact injectionQuantity_scale measured read factor

theorem guideRate_nonneg {name : String} {rate : ℚ} (rated : q.guideRate quantity name = .ok rate) :
    0 ≤ rate := by
  unfold guideRate at rated
  split at rated
  · cases rated
    rw [Scalar.larger_eq_max]
    exact le_max_right _ _
  · obtain ⟨x, _, result⟩ := Outcome.bind_eq_ok.1 rated
    cases result
    rw [Scalar.larger_eq_max]
    exact le_max_right _ _
  · cases rated
    exact le_refl 0

theorem fraction_nonneg {fraction : ℚ} (shared : q.fraction quantity = .ok fraction) :
    0 ≤ fraction := by
  obtain ⟨weights, _, shared⟩ := Outcome.bind_eq_ok.1 shared
  dsimp only at shared
  split at shared
  · cases shared
    exact zero_le_one
  · rename_i enough
    obtain ⟨own, rated, result⟩ := Outcome.bind_eq_ok.1 shared
    cases result
    have positive : 0 ≤ Scalar.sum weights := q.constants.rateEpsilon.2.trans (not_le.1 enough).le
    exact div_nonneg (guideRate_nonneg rated) positive

theorem Standing.share_nonneg (st : q.Standing) : 0 ≤ st.share := by
  have weighted : 0 ≤ max (st.target - st.reduction) 0 * st.fraction :=
    mul_nonneg (le_max_right _ _) (fraction_nonneg st.shared)
  exact div_nonneg weighted q.efficiency.2.1.le

/-! ## The answer of the helper -/

theorem byGuideRate_of_limits (limits : q.Limits target quantity off) :
    byGuideRate q = q.settle target quantity off := by
  cases limits with
  | production demand group applies measured =>
    simp only [byGuideRate, demand, group, applies, measured, Outcome.ok_bind]
  | injection demand group applies measured =>
    simp only [byGuideRate, demand, group, applies, measured, Outcome.ok_bind]

theorem byGuideRate_of_standing (st : q.Standing) :
    byGuideRate q = .ok (q.compare st.current st.share) := by
  rw [byGuideRate_of_limits st.limits, settle, st.reduced, Outcome.ok_bind, st.shared,
    Outcome.ok_bind, st.measured, Outcome.ok_bind, allowance, Scalar.larger_eq_max]
  rfl

theorem exists_standing_of_settle {share : Share ℚ} (limits : q.Limits target quantity off)
    (answer : q.settle target quantity off = .ok share) : Nonempty q.Standing := by
  obtain ⟨reduction, reduced, answer⟩ := Outcome.bind_eq_ok.1 answer
  obtain ⟨fraction, shared, answer⟩ := Outcome.bind_eq_ok.1 answer
  obtain ⟨current, measured, _⟩ := Outcome.bind_eq_ok.1 answer
  exact ⟨⟨target, quantity, off, reduction, fraction, current, limits, reduced, shared, measured⟩⟩

/-- A share is exceeded only where a target applies. -/
theorem exists_standing {share : Share ℚ} (answer : byGuideRate q = .ok share)
    (exceeded : share.exceeded = true) :
    ∃ st : q.Standing, share = q.compare st.current st.share := by
  have settled {target : ℚ} {quantity : RateQuantity ℚ} {off : List ℚ}
      (limits : q.Limits target quantity off) : ∃ st : q.Standing,
        share = q.compare st.current st.share := by
    obtain ⟨st⟩ := exists_standing_of_settle limits (byGuideRate_of_limits limits ▸ answer)
    exact ⟨st, Except.ok.inj (answer.symm.trans (byGuideRate_of_standing st))⟩
  have asked := answer
  unfold byGuideRate at asked
  split at asked
  · rename_i demand
    split at asked
    · cases asked
      cases exceeded
    rename_i controls group
    split at asked
    · cases asked
      cases exceeded
    rename_i target applies
    obtain ⟨quantity, measured, _⟩ := Outcome.bind_eq_ok.1 asked
    exact settled (.production demand group applies measured)
  · rename_i p demand
    split at asked
    · cases asked
      cases exceeded
    rename_i controls group
    split at asked
    · cases asked
      cases exceeded
    rename_i target applies
    obtain ⟨quantity, measured, _⟩ := Outcome.bind_eq_ok.1 asked
    exact settled (.injection demand group applies measured)

theorem exceeded_compare_iff {current allowed : ℚ} :
    (q.compare current allowed).exceeded = true ↔
      q.constants.rateEpsilon.val < current ∧ allowed < current := by
  rw [compare, ← not_le, ← not_le, ← not_or]
  split
  · rename_i within
    exact ⟨fun kept => (by cases kept), fun beyond => absurd within beyond⟩
  · rename_i beyond
    exact ⟨fun _ => beyond, fun _ => rfl⟩

/-- The factor for a share that is exceeded is a proper cut, and cuts to the share. -/
theorem factor_compare (st : q.Standing)
    (exceeded : (q.compare st.current st.share).exceeded = true) :
    0 ≤ (q.compare st.current st.share).factor ∧ (q.compare st.current st.share).factor < 1 ∧
      st.current * (q.compare st.current st.share).factor = st.share := by
  obtain ⟨above, beyond⟩ := exceeded_compare_iff.1 exceeded
  have positive : 0 < st.current := lt_of_le_of_lt q.constants.rateEpsilon.2 above
  have factor : (q.compare st.current st.share).factor = st.share / st.current := by
    rw [compare, if_neg (not_or.2 ⟨not_le.2 above, not_le.2 beyond⟩)]
  rw [factor]
  exact ⟨div_nonneg st.share_nonneg positive.le, (div_lt_one positive).2 beyond,
    mul_div_cancel₀ _ positive.ne'⟩

end ShareQuery

/-! ## The check -/

/-- A check of a well against its group by guide rates, unless it fails.  It switches the well
exactly if the well is not under group control, a target of the group in effect applies to it, and
the quantity that this limits is both above the least rate that counts and above the well's share.
Then all surface rates are cut by one factor, not negative and below one, that leaves exactly the
share of the quantity. -/
theorem Evaluator.groupSwitch_lands_on_share {e : Evaluator ℚ} {setting : Setting ℚ}
    {constants : Constants ℚ} {states : WellStates ℚ} {s : WellState ℚ}
    {result : Option (WellState ℚ)} (helper : e.helper = ShareQuery.byGuideRate)
    (checked : e.groupSwitch setting constants states s = .ok result) :
    (result.isSome = true ↔ e.well.mode s ≠ e.well.groupMode ∧
      ∃ q, e.groupQuestion setting constants states s = .ok q ∧ ∃ st : q.Standing,
        constants.rateEpsilon.val < st.current ∧ st.share < st.current) ∧
    ∀ s', result = some s' →
      ∃ q, e.groupQuestion setting constants states s = .ok q ∧ ∃ (st : q.Standing) (f : ℚ),
        0 ≤ f ∧ f < 1 ∧ s' = e.well.underGroup (s.scale f) ∧
          st.quantity s'.surfaceRates = .ok st.share := by
  rcases groupSwitch_eq_ok checked with ⟨under, rfl⟩ | ⟨free, q, share, asked, answer, rfl⟩
  · constructor
    · refine iff_of_false Bool.false_ne_true ?_
      rintro ⟨free, _⟩
      exact free under
    · intro s' impossible
      cases impossible
  · rw [helper] at answer
    obtain ⟨demand, group, coefficients, _, _, rfl⟩ := groupQuestion_eq_ok.1 asked
    by_cases exceeded : share.exceeded = true
    · obtain ⟨st, rfl⟩ := ShareQuery.exists_standing answer exceeded
      rw [if_pos exceeded]
      constructor
      · exact iff_of_true rfl ⟨free, _, asked, st, ShareQuery.exceeded_compare_iff.1 exceeded⟩
      · rintro s' switched
        cases switched
        obtain ⟨nonneg, proper, lands⟩ := ShareQuery.factor_compare st exceeded
        refine ⟨_, asked, st, _, nonneg, proper, rfl, ?_⟩
        rw [Well.surfaceRates_underGroup, ← congrArg Except.ok lands]
        exact st.limits.scale st.measured _
    · rw [if_neg exceeded]
      refine ⟨iff_of_false Bool.false_ne_true ?_, fun s' kept => (by cases kept)⟩
      rintro ⟨_, q, asked', st, beyond⟩
      -- There is one question, and one answer to it.
      cases asked'.symm.trans asked
      cases (ShareQuery.byGuideRate_of_standing st).symm.trans answer
      exact exceeded (ShareQuery.exceeded_compare_iff.2 beyond)

def WellGroup.withVoidage (target : NonNegative ℚ) : WellGroup ℚ :=
  ⟨"G", none, some ⟨.resv, none, none, none, none, some target⟩, .empty⟩

/-- Of two wells that flow alike one is asked for half of a target that something is taken off. -/
theorem half_lands_on_share :
    let e : Evaluator ℚ := .plain (.producer (.plain "P" "G"))
    let setting : Setting ℚ :=
      { Setting.ofGroup (.withVoidage ⟨30, by decide +kernel⟩) [.plain "P" "G", .plain "Q" "G"] with
        reductions := ⟨Catalog.empty.put "G" [1, 2, 3], .empty⟩ }
    let s : WellState ℚ := .flowing "P" (-30, -10, -5) []
    let states : WellStates ℚ := .ofStates [s, .flowing "Q" (-5, -20, -20) []]
    ∃ s', e.groupSwitch setting .standard states s = .ok (some s') ∧
      ∃ q, e.groupQuestion setting .standard states s = .ok q ∧ ∃ (st : q.Standing) (f : ℚ),
        0 ≤ f ∧ f < 1 ∧ s' = e.well.underGroup (s.scale f) ∧
          st.quantity s'.surfaceRates = .ok st.share := by
  intro e setting s states
  have switches : (e.groupSwitch setting .standard states s).map Option.isSome = .ok true := by
    decide +kernel
  cases checked : e.groupSwitch setting .standard states s with
  | error f =>
    rw [checked] at switches
    cases switches
  | ok result =>
    rw [checked] at switches
    obtain ⟨s', rfl⟩ := Option.isSome_iff_exists.1 (Except.ok.inj switches)
    exact ⟨s', rfl, (Evaluator.groupSwitch_lands_on_share rfl checked).2 s' rfl⟩

end WellControl
