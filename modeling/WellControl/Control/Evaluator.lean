import WellControl.Closure.Record
import WellControl.Group.Share
import WellControl.Journal
import WellControl.Ownership
import WellControl.Voidage

/-!
# Evaluators

An evaluator binds a well to what its evaluation calls on.
-/

set_option autoImplicit false

namespace WellControl

/-- What an evaluation writes down: closures, messages, and how often it reduced rates. -/
structure Books (α : Type) where
  closures : ClosureRecord α
  journal : Journal
  reductions : Nat

/-- A check of a producer against what it can physically do, given the time and whether messages
are written.  It runs before the economic review. -/
abbrev PhysicalCheck (α : Type) [Scalar α] :=
  Producer α → WellState α → (time : α) → (writeMessages : Bool) → Books α →
    Outcome α Unit × Books α

structure Evaluator (α : Type) [Scalar α] where
  /-- Tells the evaluator from the others, also when its well is renamed. -/
  label : String
  well : Well α
  table : PhaseTable
  converter : RateConverter α
  ownership : Ownership α
  helper : GroupHelper α
  physical : Option (PhysicalCheck α)
  writeMessages : Bool
  /-- Step at which groups are looked up. -/
  step : Nat
  guideRates : Option (GuideRates α)

structure Setting (α : Type) [Scalar α] where
  schedule : Schedule α
  reductions : Reductions α

/-- The name under which the well's state and closures are kept. -/
def Evaluator.name {α : Type} [Scalar α] (e : Evaluator α) : String := e.well.name

end WellControl
