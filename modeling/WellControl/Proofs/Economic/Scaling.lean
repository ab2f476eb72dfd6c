import WellControl.Proofs.Control.Switching
import WellControl.Proofs.Economic.Consistency
import WellControl.Proofs.Phase.Entries

/-! # Ratio checks of rates that are cut

A ratio of two rates does not change when both are multiplied by one factor
(`RatioKind.ratio_scale`), and this is all that a ratio check sees of the rates of a well as a
whole: completions are compared by rates of their own, which a cut leaves alone.  So a cut changes
nothing about a check (`RatioSource.checkRatios_scale`), neither what it reports nor how it ends. -/
set_option autoImplicit false

namespace WellControl

namespace RatioKind
variable {factor : ℚ}

theorem value_scale (nonzero : factor ≠ 0) (k : RatioKind) (c : Constants ℚ) (first second : ℚ) :
    k.value c (first * factor) (second * factor) = k.value c first second := by
  have of_quotient :
      quotient c (first * factor) (second * factor) = quotient c first second := by
    simp only [quotient_eq, mul_eq_zero, nonzero, or_false, mul_div_mul_right _ _ nonzero]
  cases k with
  | waterCut =>
    simp only [value, cut_eq, ← add_mul, mul_eq_zero, nonzero, or_false,
      mul_div_mul_right _ _ nonzero]
  | gasOil => exact of_quotient
  | waterGas => exact of_quotient

theorem sameDirection_scale (nonzero : factor ≠ 0) (first second : ℚ) :
    0 ≤ first * factor * (second * factor) ↔ 0 ≤ first * second := by
  rw [mul_mul_mul_comm, mul_nonneg_iff_of_pos_right (mul_self_pos.2 nonzero)]

/-- A ratio of scaled rates is the ratio of the rates, and fails as it does. -/
theorem ratio_scale (nonzero : factor ≠ 0) (k : RatioKind) (c : Constants ℚ) (t : PhaseTable)
    (rates : List ℚ) : k.ratio c t (rates.map (· * factor)) = k.ratio c t rates := by
  have compared (first second : ℚ) :
      (if 0 ≤ first * factor * (second * factor) then
        .ok (k.value c (first * factor) (second * factor))
      else .error .opposedRates : Outcome ℚ ℚ) =
        if 0 ≤ first * second then .ok (k.value c first second) else .error .opposedRates := by
    simp only [sameDirection_scale nonzero, value_scale nonzero]
  rw [ratio_eq, ratio_eq, PhaseTable.rate_map_eq, PhaseTable.rate_map_eq]
  cases t.rate rates k.phases.1 with
  | error fault => rfl
  | ok first =>
    cases t.rate rates k.phases.2 with
    | error fault => rfl
    | ok second => exact compared first second

end RatioKind

theorem WellState.surface_scale (s : WellState ℚ) (factor : ℚ) :
    (s.scale factor).surface = s.surface.map (· * factor) :=
  Grid.line_map _ _

theorem WellState.exceeds_scale {factor : ℚ} (nonzero : factor ≠ 0) (s : WellState ℚ)
    (k : RatioKind) (c : Constants ℚ) (t : PhaseTable) (limit : ℚ) :
    (s.scale factor).exceeds k c t limit = s.exceeds k c t limit := by
  rw [exceeds, exceeds, surface_scale, RatioKind.ratio_scale nonzero]

namespace RatioSource

/-! ## What a check sees of a state -/

section OtherState
variable {α : Type} [Scalar α] {r : RatioSource α} {s : WellState α}

def withState (r : RatioSource α) (s : WellState α) : RatioSource α := { r with state := s }

/-- Two states that a ratio check cannot tell apart: completions flow alike, and the well as a whole
exceeds the same limits. -/
structure SeesAlike (r : RatioSource α) (s : WellState α) : Prop where
  perforationRates : s.perforationRates = r.state.perforationRates
  exceeds : ∀ k limit, s.exceeds k r.constants r.table limit =
    r.state.exceeds k r.constants r.table limit

theorem ownRates_withState (rates : s.perforationRates = r.state.perforationRates)
    (connections : List Nat) : (r.withState s).ownRates connections = r.ownRates connections := by
  simp only [ownRates, withState, rates]

theorem highest_withState (rates : s.perforationRates = r.state.perforationRates) (k : RatioKind)
    (completions : List (Int × List Nat)) (n : Nat) (best : Highest α) :
    (r.withState s).highest k completions n best = r.highest k completions n best := by
  induction completions generalizing n best with
  | nil => rfl
  | cons completion rest ih =>
    obtain ⟨id, connections⟩ := completion
    simp only [highest, ownRates_withState rates, ih]
    rfl

theorem checkCompletions_withState (rates : s.perforationRates = r.state.perforationRates)
    (k : RatioKind) (limit : α) (p : RatioProgress α) :
    (r.withState s).checkCompletions k limit p = r.checkCompletions k limit p := by
  have needed : (r.withState s).rowsNeeded = r.rowsNeeded := rfl
  have state : (r.withState s).state = s := rfl
  have well : (r.withState s).well = r.well := rfl
  simp only [checkCompletions, highest_withState rates, needed, state, well, rates]

theorem SeesAlike.checkLimit (alike : r.SeesAlike s) (k : RatioKind)
    (limit : Option (NonNegative α)) (p : RatioProgress α) :
    (r.withState s).checkLimit k limit p = r.checkLimit k limit p := by
  simp only [RatioSource.checkLimit, checkCompletions_withState alike.perforationRates]
  simp only [withState, alike.exceeds]

theorem SeesAlike.checkLimits (alike : r.SeesAlike s) (l : EconomicLimits α)
    (kinds : List RatioKind) (p : RatioProgress α) :
    (r.withState s).checkLimits l kinds p = r.checkLimits l kinds p := by
  induction kinds generalizing p with
  | nil => rfl
  | cons k rest ih => simp only [RatioSource.checkLimits, alike.checkLimit, ih]

theorem SeesAlike.checkRatios (alike : r.SeesAlike s) (l : EconomicLimits α)
    (p : RatioProgress α) : (r.withState s).checkRatios l p = r.checkRatios l p := by
  rw [RatioSource.checkRatios, RatioSource.checkRatios, alike.checkLimits]

end OtherState

/-! ## Cuts -/

theorem seesAlike_scale {factor : ℚ} (nonzero : factor ≠ 0) (r : RatioSource ℚ) :
    r.SeesAlike (r.state.scale factor) where
  perforationRates := rfl
  exceeds k limit := r.state.exceeds_scale nonzero k r.constants r.table limit

/-- Multiplying the surface rates of a well by a factor, any but zero, changes nothing about a check
of its ratio limits: the report, the reductions made for it, what it tells and the fault that it may
end with are the same. -/
theorem checkRatios_scale {factor : ℚ} (nonzero : factor ≠ 0) (r : RatioSource ℚ)
    (l : EconomicLimits ℚ) (p : RatioProgress ℚ) :
    (r.withState (r.state.scale factor)).checkRatios l p = r.checkRatios l p :=
  (seesAlike_scale nonzero r).checkRatios l p

theorem quartered_checkRatios :
    halvedSource.exceeds .halfWater .waterCut = true ∧ (1 / 2 : ℚ) ≠ 0 ∧
      (halvedSource.withState (halvedSource.state.scale (1 / 2))).checkRatios .halfWater
          ⟨.fresh, 0⟩ =
        halvedSource.checkRatios .halfWater ⟨.fresh, 0⟩ :=
  ⟨by decide +kernel, by decide +kernel,
    checkRatios_scale (by decide +kernel) halvedSource .halfWater ⟨.fresh, 0⟩⟩

/-- A well cut to nothing is no longer above a limit that it exceeded. -/
example : halvedSource.exceeds .halfWater .waterCut = true ∧
    (halvedSource.withState (halvedSource.state.scale 0)).exceeds .halfWater .waterCut = false := by
  decide +kernel

end RatioSource

/-- A well that its group has cut, and not to nothing, is judged by its ratios as it would have been
before. -/
theorem Evaluator.checkRatios_of_groupSwitch {e : Evaluator ℚ} {setting : Setting ℚ}
    {constants : Constants ℚ} {states : WellStates ℚ} {s s' : WellState ℚ}
    (switched : e.groupSwitch setting constants states s = .ok (some s')) :
    ∃ factor, s' = e.well.underGroup (s.scale factor) ∧
      (factor ≠ 0 → ∀ l p,
        (e.ratioSource constants s').checkRatios l p =
          (e.ratioSource constants s).checkRatios l p) := by
  obtain ⟨_, _, share, _, _, _, rfl⟩ := groupSwitch_eq_some switched
  refine ⟨share.factor, rfl, fun nonzero l p => ?_⟩
  have alike : (e.ratioSource constants s).SeesAlike
      (e.well.underGroup (s.scale share.factor)) := by
    have scaled := (e.ratioSource constants s).seesAlike_scale nonzero
    -- The mode of control is not something that a ratio check looks at.
    cases e.well <;> exact ⟨scaled.perforationRates, scaled.exceeds⟩
  exact alike.checkRatios l p

end WellControl
