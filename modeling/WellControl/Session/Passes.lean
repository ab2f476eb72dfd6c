import WellControl.Session.Basic

/-!
# Passes in a session
-/

set_option autoImplicit false

namespace WellControl

namespace Session
variable {α : Type} [Scalar α]

def visited (s : Session α) : Option (List String) → Outcome α (List (Evaluator α))
  | none => .ok s.evaluators.values
  | some labels => labels.mapM s.evaluator

def pass (s : Session α) (config : Config α) (labels : Option (List String)) (time : α) :
    Outcome α StepReport × Session α :=
  match s.visited labels with
  | .error f => (.error f, s)
  | .ok evaluators =>
    let (outcome, world) := evaluateStep config s.setting time evaluators s.world
    (outcome, { s with world })

def passAndReplay (s : Session α) (config : Config α) (labels : Option (List String)) (time : α) :
    Outcome α (StepReport × List (Int × String)) × Session α :=
  match s.visited labels with
  | .error f => (.error f, s)
  | .ok evaluators =>
    let (outcome, world) := evaluateAndReplay config s.setting time evaluators s.world
    (outcome, { s with world })

end Session
end WellControl
