import WellControl.Control.Evaluator

/-!
# The world a pass changes
-/

set_option autoImplicit false

namespace WellControl

structure World (α : Type) [Scalar α] where
  states : WellStates α
  closures : ClosureRecord α
  journal : Journal
  /-- How often rates were reduced so far, by label of the evaluator. -/
  reductions : Catalog String Nat
  constants : Constants α

namespace World
variable {α : Type} [Scalar α]

def reductionsOf (w : World α) (label : String) : Nat := (w.reductions.get? label).getD 0

def books (w : World α) : Books α := ⟨w.closures, w.journal, 0⟩

def withBooks (w : World α) (label : String) (b : Books α) : World α :=
  { w with
    closures := b.closures
    journal := b.journal
    reductions := w.reductions.put label (w.reductionsOf label + b.reductions) }

/-- Take over the state of a well if there is a new one. -/
def withState (w : World α) (name : String) : Option (WellState α) → World α
  | some s => { w with states := w.states.adjust name fun _ => s }
  | none => w

def within {β : Type} (w : World α) (constants : Constants α) (act : World α → β × World α) :
    β × World α :=
  let (result, after) := act { w with constants }
  (result, { after with constants := w.constants })

end World
end WellControl
