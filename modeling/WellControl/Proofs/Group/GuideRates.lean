import WellControl.Catalog.Lemmas
import WellControl.Control.Switching
import WellControl.Proofs.Outcome

/-! # Shares under given guide rates

A share looks at the states of wells only for guide rates that are not given.  Where the guide
rates name every well of the schedule, the share of a well, and with it the check of the well's
controls, depends on the well's own state alone (`Evaluator.controlSwitch_states`). -/
set_option autoImplicit false

namespace WellControl
variable {α : Type} [Scalar α]

/-- The guide rates of an evaluator name its own well and every well of a schedule. -/
def Evaluator.GuideRatesGiven (e : Evaluator α) (schedule : Schedule α) : Prop :=
  ∃ rates, e.guideRates = some rates ∧ e.name ∈ rates.keys ∧
    ∀ w ∈ schedule.wells.all, w.name ∈ rates.keys

namespace ShareQuery
variable {q : ShareQuery α} {rates : GuideRates α}

theorem mem_all_of_mem_siblings {w : Well α} (member : w ∈ q.siblings) :
    w ∈ q.schedule.wells.all :=
  (List.mem_filter.1 (List.mem_filter.1 member).1).1

theorem guideRate_of_given (given : q.guideRates = some rates) {name : String}
    (named : name ∈ rates.keys) (quantity : RateQuantity α) :
    q.guideRate quantity name = .ok (Scalar.larger ((rates.get? name).getD 0) 0) := by
  cases found : rates.get? name with
  | none => exact absurd named (Catalog.get?_eq_none_iff.1 found)
  | some rate => simp only [guideRate, given, Option.bind_some, found, Option.getD_some]

theorem fraction_of_given (given : q.guideRates = some rates) (own : q.well ∈ rates.keys)
    (named : ∀ w ∈ q.schedule.wells.all, w.name ∈ rates.keys) (quantity : RateQuantity α) :
    q.fraction quantity =
      let weight := fun name => Scalar.larger ((rates.get? name).getD 0) 0
      let total := Scalar.sum (q.siblings.map fun w => weight w.name)
      if total ≤ q.constants.rateEpsilon.val then .ok 1 else .ok (weight q.well / total) := by
  have siblings : q.siblings.mapM (fun w => q.guideRate quantity w.name) =
      .ok (q.siblings.map fun w => Scalar.larger ((rates.get? w.name).getD 0) 0) :=
    Outcome.mapM_eq_ok fun w member =>
      guideRate_of_given given (named w (mem_all_of_mem_siblings member)) quantity
  simp only [fraction, siblings, guideRate_of_given given own, Outcome.ok_bind,
    Outcome.pure_eq_ok]

/-- The answer to a question does not depend on the states if all guide rates are given. -/
theorem byGuideRate_states (given : q.guideRates = some rates) (own : q.well ∈ rates.keys)
    (named : ∀ w ∈ q.schedule.wells.all, w.name ∈ rates.keys) (states : WellStates α) :
    byGuideRate { q with states } = byGuideRate q := by
  have settles (target : α) (quantity : RateQuantity α) (off : List α) :
      ({ q with states } : ShareQuery α).settle target quantity off =
        q.settle target quantity off := by
    simp only [settle]
    rw [fraction_of_given given own named,
      fraction_of_given (q := { q with states }) given own named]
    rfl
  simp only [byGuideRate, settles]

end ShareQuery

namespace Evaluator
variable {e : Evaluator α} {setting : Setting α}

theorem groupSwitch_states (helper : e.helper = ShareQuery.byGuideRate)
    (given : e.GuideRatesGiven setting.schedule) (constants : Constants α)
    (states states' : WellStates α) (s : WellState α) :
    e.groupSwitch setting constants states' s = e.groupSwitch setting constants states s := by
  obtain ⟨rates, given, own, named⟩ := given
  have answers (group : WellGroup α) (demand : Demand) (coefficients : List α) :
      e.helper (e.shareQuery setting constants states' s.surfaceRates group demand coefficients) =
        e.helper (e.shareQuery setting constants states s.surfaceRates group demand
          coefficients) := by
    rw [helper]
    exact ShareQuery.byGuideRate_states
      (q := e.shareQuery setting constants states s.surfaceRates group demand coefficients)
      given own named states'
  simp only [groupSwitch, answers]

/-- A check of the controls reads no state but the well's own if all guide rates are given. -/
theorem controlSwitch_states (helper : e.helper = ShareQuery.byGuideRate)
    (given : e.GuideRatesGiven setting.schedule) (constants : Constants α)
    (states states' : WellStates α) (s : WellState α) :
    e.controlSwitch setting constants states' s = e.controlSwitch setting constants states s := by
  simp only [controlSwitch, groupSwitch_states helper given constants states states' s]

end Evaluator
end WellControl
