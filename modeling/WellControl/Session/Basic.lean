import WellControl.Pass.Basic

/-!
# Sessions

A session holds the wells of a run with their evaluators and the world they are evaluated in.
Single checks can be made on a well between passes, and definitions can be changed.
-/

set_option autoImplicit false

namespace WellControl

structure Session (α : Type) [Scalar α] where
  config : Config α
  table : PhaseTable
  /-- Evaluators in the order a pass visits them, by label. -/
  evaluators : Catalog String (Evaluator α)
  /-- Labels of the evaluators whose wells the schedule knows. -/
  scheduled : List String
  setting : Setting α
  world : World α

/-- What is common to the evaluators of a session. -/
structure Session.Plan (α : Type) [Scalar α] where
  table : PhaseTable
  converter : RateConverter α
  config : Config α
  step : Int
  guideRates : Option (GuideRates α)
  ownership : String → Ownership α
  physical : String → Option (PhysicalCheck α)

namespace Session
variable {α : Type} [Scalar α]

/-- A session over wells that share targets by guide rate, with the standard constants current
between passes.  The label of an evaluator is the name its well has now. -/
def start (plan : Plan α) (wells : Catalog String (Well α)) (setting : Setting α)
    (states : WellStates α) (closures : ClosureRecord α) : Outcome α (Session α) := do
  let evaluators ← wells.entries.mapM fun e => do
    let step ← checkNatural "current_step" plan.step
    let evaluator : Evaluator α :=
      { label := e.1
        well := e.2
        table := plan.table
        converter := plan.converter
        ownership := plan.ownership e.1
        helper := ShareQuery.byGuideRate
        physical := plan.physical e.1
        writeMessages := plan.config.writeMessages
        step
        guideRates := plan.guideRates }
    return (e.1, evaluator)
  return {
    config := plan.config
    table := plan.table
    evaluators := Catalog.ofList evaluators
    scheduled := setting.schedule.wells.names
    setting
    world := ⟨states, closures, [], .empty, .standard⟩ }

def evaluator (s : Session α) (label : String) : Outcome α (Evaluator α) :=
  match s.evaluators.get? label with
  | some e => .ok e
  | none => .error (.unlisted label)

/-- The evaluator of a label, and the state listed under the label. -/
def evaluatorAndState (s : Session α) (label : String) :
    Outcome α (Evaluator α × WellState α) := do
  let e ← s.evaluator label
  return (e, ← s.world.states.state label)

def clearJournal (s : Session α) : Session α :=
  { s with world := { s.world with journal := [] } }

def within {β : Type} (s : Session α) (constants : Constants α)
    (act : Session α → β × Session α) : β × Session α :=
  let (result, after) := act { s with world := { s.world with constants } }
  (result, { after with world := { after.world with constants := s.world.constants } })

end Session
end WellControl
