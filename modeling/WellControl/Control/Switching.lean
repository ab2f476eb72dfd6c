import WellControl.Control.Individual

/-!
# Switching of control modes

A well that keeps its own limits is compared with its share of its group's target.  If it exceeds
the share, all its rates are cut by one factor and it goes under group control.  A well under
group control is not compared again.
-/

set_option autoImplicit false

namespace WellControl
namespace Evaluator
variable {α : Type} [Scalar α]

/-- The question put to the group helper. -/
def shareQuery (e : Evaluator α) (setting : Setting α) (constants : Constants α)
    (states : WellStates α) (rates : Grid α) (group : WellGroup α) (demand : Demand)
    (coefficients : List α) : ShareQuery α :=
  { well := e.name
    group, demand, states
    reductions := setting.reductions
    step := e.step
    guideRates := e.guideRates
    rates
    table := e.table
    efficiency := e.well.header.efficiency
    schedule := setting.schedule
    coefficients, constants }

/-- The group that a well belongs to, and the coefficients of its total reservoir rate. -/
def groupAndCoefficients (e : Evaluator α) (setting : Setting α) (constants : Constants α) :
    Outcome α (WellGroup α × List α) := do
  let group ← setting.schedule.group e.well.groupName e.step
  let coefficients ← e.converter.coefficients constants.fipRegion e.well.header.pvtRegion
  return (group, coefficients)

/-- The state after the well was compared with its share, if it was put under group control. -/
def groupSwitch (e : Evaluator α) (setting : Setting α) (constants : Constants α)
    (states : WellStates α) (s : WellState α) : Outcome α (Option (WellState α)) :=
  match e.well with
  | .injector w =>
    if s.injectionControl = .grup then .ok none
    else do
      let phase ← w.phase
      let (group, coefficients) ← e.groupAndCoefficients setting constants
      let share ← e.helper
        (e.shareQuery setting constants states s.surfaceRates group (.injection phase) coefficients)
      if share.exceeded then
        return some { (← s.rescale share.factor) with injectionControl := .grup }
      else return none
  | .producer _ =>
    if s.productionControl = .grup then .ok none
    else do
      let (group, coefficients) ← e.groupAndCoefficients setting constants
      let share ← e.helper
        (e.shareQuery setting constants states s.surfaceRates group .production coefficients)
      if share.exceeded then
        return some { (← s.rescale share.factor) with productionControl := .grup }
      else return none

/-- The state after both checks, if one of them changed the control mode. -/
def controlSwitch (e : Evaluator α) (setting : Setting α) (constants : Constants α)
    (states : WellStates α) (s : WellState α) : Outcome α (Option (WellState α)) := do
  match ← e.individualSwitch constants s with
  | some switched => return some switched
  | none => e.groupSwitch setting constants states s

end Evaluator
end WellControl
