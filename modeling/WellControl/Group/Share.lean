import WellControl.Constants.Basic
import WellControl.Group.Quantity
import WellControl.Group.Schedule
import WellControl.State.Basic

/-!
# Shares of a group target

A group's target, less the rates of its wells that are not under group control, is shared among
its wells by guide rate.  A well without a guide rate counts with its current rate.
-/

set_option autoImplicit false

namespace WellControl

inductive Demand where
  | production
  | injection (phase : Phase)
deriving DecidableEq, Repr

/-- Rates, per phase, to take off the targets of groups before they are shared. -/
structure Reductions (α : Type) where
  production : Catalog String (List α)
  injection : Catalog String (List α)

abbrev GuideRates (α : Type) := Catalog String α

/-- The question whether a well keeps within its share of its group's target. -/
structure ShareQuery (α : Type) [Scalar α] where
  well : String
  group : WellGroup α
  demand : Demand
  states : WellStates α
  reductions : Reductions α
  step : Int
  guideRates : Option (GuideRates α)
  rates : Grid α
  table : PhaseTable
  efficiency : Fraction α
  schedule : Schedule α
  /-- Coefficients of the total reservoir rate. -/
  coefficients : List α
  constants : Constants α

/-- Whether a well exceeds its share, and the factor that brings its rates down to it. -/
structure Share (α : Type) where
  exceeded : Bool
  factor : α

abbrev GroupHelper (α : Type) [Scalar α] := ShareQuery α → Outcome α (Share α)

variable {α : Type} [Scalar α]

def Share.kept : Share α := ⟨false, 1⟩

namespace Reductions

/-- What is taken off a group's target; nothing unless rates are given. -/
def off (c : Catalog String (List α)) (group : String) (t : PhaseTable) : List α :=
  (c.get? group).getD t.zeros

end Reductions

namespace ShareQuery

/-- The wells that share the target with one another. -/
def siblings (q : ShareQuery α) : List (Well α) :=
  (q.schedule.wells.inGroup q.group.name).filter fun w =>
    match q.demand, w with
    | .production, .producer _ => true
    | .injection p, .injector v => v.controls.fluid.phase? = some p
    | _, _ => false

def guideRate (q : ShareQuery α) (quantity : RateQuantity α) (name : String) : Outcome α α :=
  match q.guideRates.bind (·.get? name), q.states.get? name with
  | some rate, _ => .ok (Scalar.larger rate 0)
  | none, some state => do return Scalar.larger (← quantity state.surfaceRates) 0
  | none, none => .ok 0

/-- The part of the target that falls to the well; all of it if the weights come to nothing. -/
def fraction (q : ShareQuery α) (quantity : RateQuantity α) : Outcome α α := do
  let total := Scalar.sum (← q.siblings.mapM fun w => q.guideRate quantity w.name)
  if total ≤ q.constants.rateEpsilon.val then return 1
  else return (← q.guideRate quantity q.well) / total

/-- The rate the well may have while it operates. -/
def allowance (q : ShareQuery α) (target reduction fraction : α) : α :=
  Scalar.larger (target - reduction) 0 * fraction / q.efficiency.val

def compare (q : ShareQuery α) (current allowed : α) : Share α :=
  if current ≤ q.constants.rateEpsilon.val ∨ current ≤ allowed then .kept
  else ⟨true, allowed / current⟩

/-- The answer for a target, the quantity it limits, and the rates taken off it. -/
def settle (q : ShareQuery α) (target : α) (quantity : RateQuantity α) (off : List α) :
    Outcome α (Share α) := do
  let reduction ← quantity (Grid.ofList off)
  let fraction ← q.fraction quantity
  let current ← quantity q.rates
  return q.compare current (q.allowance target reduction fraction)

/-- Share the group's target by guide rate.  A group without a target asks nothing. -/
def byGuideRate : GroupHelper α := fun q =>
  match q.demand with
  | .production =>
    match q.group.production with
    | none => .ok .kept
    | some controls =>
      match controls.target? with
      | none => .ok .kept
      | some target => do
        let quantity ← productionQuantity controls.mode q.table q.coefficients
        let off := Reductions.off q.reductions.production q.group.name q.table
        q.settle target.val quantity (off.map fun x => -x)
  | .injection p =>
    match q.group.injection.get? p with
    | none => .ok .kept
    | some controls =>
      match controls.target? with
      | none => .ok .kept
      | some target => do
        let quantity ← injectionQuantity controls.mode p q.table q.coefficients
        q.settle target.val quantity
          (Reductions.off q.reductions.injection q.group.name q.table)

end ShareQuery
end WellControl
