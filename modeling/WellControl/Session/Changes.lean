import WellControl.Session.Basic

/-!
# Changes of definitions and states in a session
-/

set_option autoImplicit false

namespace WellControl

namespace Session
variable {α : Type} [Scalar α]

def changeState (s : Session α) (name : String) (ch : WellState.Change α) :
    Outcome α (Session α) := do
  let state ← s.world.states.state name
  let state ← state.change ch
  return { s with world := s.world.withState name (some state) }

/-- The schedule's wells as evaluators have them. -/
def wellsOf (scheduled : List String) (evaluators : Catalog String (Evaluator α)) : Wells α :=
  Wells.split (scheduled.filterMap fun label => (evaluators.get? label).map Evaluator.well)

/-- Change a well, for its evaluator and, if it is known there, in the schedule. -/
def changeWell (s : Session α) (label : String) (ch : WellHeader.Change α) :
    Outcome α (Session α) := do
  let e ← s.evaluator label
  let well ← e.well.change ch
  let evaluators := s.evaluators.adjust label fun e => { e with well }
  let schedule := { s.setting.schedule with wells := wellsOf s.scheduled evaluators }
  return { s with evaluators, setting := { s.setting with schedule } }

def withEvaluators (s : Session α) (f : Evaluator α → Evaluator α) : Session α :=
  { s with evaluators := s.evaluators.mapValues fun _ e => f e }

/-- Move to another step.  Without evaluators there is nothing to move. -/
def setStep (s : Session α) (step : Int) : Outcome α (Session α) :=
  if s.evaluators.size = 0 then .ok s
  else do
    let step ← checkNatural "current_step" step
    return s.withEvaluators fun e => { e with step }

def setGuideRates (s : Session α) (guideRates : Option (GuideRates α)) : Session α :=
  s.withEvaluators fun e => { e with guideRates }

def setReductions (s : Session α) (reductions : Reductions α) : Session α :=
  { s with setting := { s.setting with reductions } }

/-- Change a constant of the configuration, under which passes are made. -/
def changeConstants (s : Session α) (ch : Constants.Change α) : Outcome α (Session α) := do
  let constants ← s.config.constants.change ch
  return { s with config := { s.config with constants } }

end Session
end WellControl
