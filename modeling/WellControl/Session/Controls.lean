import WellControl.Session.Basic

/-!
# Checks of controls in a session
-/

set_option autoImplicit false

namespace WellControl

namespace Session
variable {α : Type} [Scalar α]

/-- Take over the state that a check makes of the one listed under a name, and say whether it
made one. -/
def switch (s : Session α) (name : String)
    (check : WellState α → Outcome α (Option (WellState α))) : Outcome α (Bool × Session α) := do
  let switched ← check (← s.world.states.state name)
  return (switched.isSome, { s with world := s.world.withState name switched })

/-- Hold a well to its own limits, and say whether its control mode changed. -/
def checkIndividual (s : Session α) (label : String) : Outcome α (Bool × Session α) := do
  let e ← s.evaluator label
  s.switch label (e.individualSwitch s.world.constants)

/-- Hold a well to its share of its group's target, and say whether its control mode changed.  As
in a pass, its state is the one listed under its name. -/
def checkGroup (s : Session α) (label : String) : Outcome α (Bool × Session α) := do
  let e ← s.evaluator label
  s.switch e.name (e.groupSwitch s.setting s.world.constants s.world.states)

/-- Hold a well to its own limits, and to its share unless they changed its control mode.  As in a
pass, its state is the one listed under its name. -/
def checkControls (s : Session α) (label : String) : Outcome α (Bool × Session α) := do
  let e ← s.evaluator label
  s.switch e.name (e.controlSwitch s.setting s.world.constants s.world.states)

/-- Convert the surface rates of a well and keep the reservoir rates in its state. -/
def updateReservoirRates (s : Session α) (label : String) : Outcome α (Session α) := do
  let e ← s.evaluator label
  let (_, s) ← s.switch label fun state => some <$> e.withReservoirRates s.world.constants state
  return s

def injectedPhase (s : Session α) (label : String) : Outcome α Phase := do
  match (← s.evaluator label).well with
  | .injector w => w.phase
  | .producer _ => throw .otherKindOfWell

/-- The helper's answer for a well, for its own rates and phase or for others. -/
def share (s : Session α) (label : String) (rates : Option (List α))
    (phase : Option (Outcome α Phase)) : Outcome α (Share α) := do
  let (e, state) ← s.evaluatorAndState label
  let (group, coefficients) ← e.groupAndCoefficients s.setting s.world.constants
  let demand ← match e.well with
    | .producer _ => pure Demand.production
    | .injector w => Demand.injection <$> phase.getD w.phase
  e.helper (e.shareQuery s.setting s.world.constants s.world.states 
    ((rates.map Grid.ofList).getD state.surfaceRates) group demand coefficients)

end Session
end WellControl
