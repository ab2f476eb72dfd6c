import WellControl.Config
import WellControl.Control.Switching
import WellControl.Economic.Review
import WellControl.Pass.World

/-!
# Passes over wells

A pass visits wells one after the other.  A visit checks the controls of a well, which may cut
its rates, and then updates the books for it.  The pass stops at the first fault; what was changed
until then stays.
-/

set_option autoImplicit false

namespace WellControl

structure StepReport where
  switched : List String := []
  /-- Wells closed for a reason they were not closed for before. -/
  closedWells : List String := []
  /-- Completions that were not closed before, each with its well. -/
  closedCompletions : List (String × Int) := []
deriving DecidableEq, Repr

def StepReport.append (r s : StepReport) : StepReport :=
  ⟨r.switched ++ s.switched, r.closedWells ++ s.closedWells,
    r.closedCompletions ++ s.closedCompletions⟩

/-- What a visit to a well changed, seen from the closures before and after it. -/
def StepReport.ofVisit {α : Type} (name : String) (switched : Bool)
    (before after : ClosureRecord α) : StepReport where
  switched := if switched then [name] else []
  closedWells :=
    if (after.reasons name).any fun reason => decide (reason ∉ before.reasons name) then [name]
    else []
  closedCompletions :=
    ((after.closedCompletions name).filter fun completion =>
      decide (completion ∉ before.closedCompletions name)).map fun completion => (name, completion)

variable {α : Type} [Scalar α]

def Evaluator.visit (e : Evaluator α) (setting : Setting α) (time : α) (w : World α) :
    Outcome α StepReport × World α :=
  match w.states.state e.name with
  | .error f => (.error f, w)
  | .ok s =>
    match e.controlSwitch setting w.constants w.states s with
    | .error f => (.error f, w)
    | .ok switched =>
      let w := w.withState e.name switched
      match e.updateBooks w.constants (switched.getD s) time w.books with
      | (.error f, b) => (.error f, w.withBooks e.label b)
      | (.ok (), b) =>
        (.ok (.ofVisit e.name switched.isSome w.closures b.closures), w.withBooks e.label b)

def visitAll (setting : Setting α) (time : α) :
    List (Evaluator α) → World α → Outcome α StepReport × World α
  | [], w => (.ok {}, w)
  | e :: rest, w =>
    match e.visit setting time w with
    | (.error f, w) => (.error f, w)
    | (.ok report, w) =>
      match visitAll setting time rest w with
      | (.error f, w) => (.error f, w)
      | (.ok more, w) => (.ok (report.append more), w)

/-- One pass, under the constants of a configuration. -/
def evaluateStep (config : Config α) (setting : Setting α) (time : α)
    (evaluators : List (Evaluator α)) (w : World α) : Outcome α StepReport × World α :=
  w.within config.constants (visitAll setting time evaluators)

/-- One pass with a journal of its own, which is replayed if the pass ends without a fault. -/
def evaluateAndReplay (config : Config α) (setting : Setting α) (time : α)
    (evaluators : List (Evaluator α)) (w : World α) :
    Outcome α (StepReport × List (Int × String)) × World α :=
  let (outcome, after) := evaluateStep config setting time evaluators { w with journal := [] }
  (outcome.map fun report => (report, after.journal.replay config.logLevel),
    { after with journal := w.journal })

end WellControl
