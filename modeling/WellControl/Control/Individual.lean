import WellControl.Control.Evaluator

/-!
# A well's own limits

The limits of a well are visited in a fixed order.  The first one that is enabled, is not the
current control mode and is exceeded becomes the control mode.
-/

set_option autoImplicit false

namespace WellControl

/-- The first mode of a list that is enabled, is not the current one, and is exceeded.  Whether
a mode is exceeded is asked only of the modes visited. -/
def firstExceeded {μ φ : Type} [DecidableEq μ] (enabled : μ → Bool) (current : μ)
    (exceeded : μ → Except φ Bool) : List μ → Except φ (Option μ)
  | [] => .ok none
  | m :: rest =>
    if enabled m && decide (m ≠ current) then
      match exceeded m with
      | .ok true => .ok (some m)
      | .ok false => firstExceeded enabled current exceeded rest
      | .error f => .error f
    else firstExceeded enabled current exceeded rest

variable {α : Type} [Scalar α]

def PhaseTable.total (t : PhaseTable) (rates : List α) : Outcome α α := do
  return Scalar.sum (← Phase.canonical.mapM (t.rateOrZero rates))

/-- Whether a limit of an injector is exceeded, whatever its control mode. -/
def Injector.exceeds (w : Injector α) (t : PhaseTable) (s : WellState α) :
    InjectorMode → Outcome α Bool
  | .bhp => .ok (decide (w.controls.bhpLimit.val < s.bhp))
  | .rate => do
    let p ← w.phase
    return decide (w.controls.surfaceRate.val < (← t.rateOrZero s.surface p))
  | .resv => do return decide (w.controls.reservoirRate.val < (← t.total s.reservoir))
  | .thp => .ok (decide (w.controls.thpLimit.val < s.thp))
  | .none | .grup => .ok false

namespace Producer

def observed (w : Producer α) : Phase → α
  | .water => w.controls.waterRate.val
  | .oil => w.controls.oilRate.val
  | .gas => w.controls.gasRate.val

/-- Most that the well may produce in reservoir volumes: as much as its controls say, or, of a
well that follows its history, as much as it was observed to. -/
def reservoirLimit (w : Producer α) (t : PhaseTable) (converter : RateConverter α)
    (constants : Constants α) : Outcome α α :=
  if w.controls.prediction then .ok w.controls.reservoirRate.val
  else do
    let rates := Grid.ofList (t.active.map w.observed)
    return Scalar.sum (← converter.voidage constants.fipRegion w.pvtRegion rates)

/-- Whether a limit of a producer is exceeded, whatever its control mode. -/
def exceeds (w : Producer α) (t : PhaseTable) (converter : RateConverter α)
    (constants : Constants α) (s : WellState α) : ProducerMode → Outcome α Bool
  | .bhp => .ok (decide (s.bhp < w.controls.bhpLimit.val))
  | .orat => do
    return decide (w.controls.oilRate.val < -(← t.rateOrZero s.surface .oil))
  | .wrat => do
    return decide (w.controls.waterRate.val < -(← t.rateOrZero s.surface .water))
  | .grat => do
    return decide (w.controls.gasRate.val < -(← t.rateOrZero s.surface .gas))
  | .lrat => do
    let oil ← t.rateOrZero s.surface .oil
    let water ← t.rateOrZero s.surface .water
    return decide (w.controls.liquidRate.val < -oil - water)
  | .resv => do
    let total ← t.total s.reservoir
    return decide ((← w.reservoirLimit t converter constants) < -total)
  | .thp => .ok (decide (s.thp < w.controls.thpLimit.val))
  | .none | .grup => .ok false

end Producer

namespace Evaluator

/-- The state after the well's own limits were checked, if they changed its control mode. -/
def individualSwitch (e : Evaluator α) (constants : Constants α) (s : WellState α) :
    Outcome α (Option (WellState α)) :=
  match e.well with
  | .injector w => do
    let mode ← firstExceeded w.controls.has s.injectionControl (w.exceeds e.table s)
      InjectorMode.visitingOrder
    return mode.map fun m => { s with injectionControl := m }
  | .producer w => do
    let mode ← firstExceeded w.controls.has s.productionControl
      (w.exceeds e.table e.converter constants s) ProducerMode.visitingOrder
    return mode.map fun m => { s with productionControl := m }

/-- The state with its reservoir rates computed anew from its surface rates.  Their array keeps its
shape. -/
def withReservoirRates (e : Evaluator α) (constants : Constants α) (s : WellState α) :
    Outcome α (WellState α) := do
  let rates ← e.converter.voidage constants.fipRegion e.well.header.pvtRegion s.surfaceRates
  return { s with reservoirRates := ← Grid.ofRow s.reservoirRates.shape rates }

end Evaluator
end WellControl
