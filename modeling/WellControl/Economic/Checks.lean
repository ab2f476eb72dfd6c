import WellControl.Economic.WorstCompletion
import WellControl.Journal

/-!
# Economic checks

The minimum rates and the maximum ratios of a producer.  Limits that are not supported are
reported when the check comes to them.
-/

set_option autoImplicit false

namespace WellControl

variable {α : Type} [Scalar α]

/-- Whether phases together flow at less than a minimum rate, in either direction. -/
def belowMinimum (limit : Option (NonNegative α)) (phases : List Phase) (t : PhaseTable)
    (rates : List α) : Outcome α Bool :=
  match EconomicLimits.active? limit with
  | none => .ok false
  | some least =>
    if phases.all t.has then do
      let flow := Scalar.sum (← phases.mapM (t.rate rates))
      return decide (Scalar.magnitude flow < least.val)
    else .error .brokenExpectation

namespace EconomicLimits

def reservoirFluidNotice : Record :=
  .warning "NOT_SUPPORTING_MIN_RESERVOIR_FLUID_RATE"
    "Minimum reservoir fluid production rate limit is not supported yet"

def gasLiquidNotice : Record :=
  .warning "NOT_SUPPORTING_MAX_GLR"
    "the support for max Gas-Liquid ratio is not implemented yet!"

/-- Whether a minimum rate is violated, and what is reported. -/
def checkRates (l : EconomicLimits α) (t : PhaseTable) (rates : List α) :
    Outcome α (Bool × Journal) := do
  if ← belowMinimum l.minOilRate [.oil] t rates then return (true, [])
  if ← belowMinimum l.minGasRate [.gas] t rates then return (true, [])
  if ← belowMinimum l.minLiquidRate [.oil, .water] t rates then return (true, [])
  return (false, if isOn l.minReservoirFluidRate then [reservoirFluidNotice] else [])

end EconomicLimits

namespace RatioSource

/-- Check the limits that are on, one after the other, up to the first fault. -/
def checkLimits (r : RatioSource α) (l : EconomicLimits α) :
    List RatioKind → RatioProgress α → Outcome α Unit × RatioProgress α
  | [], p => (.ok (), p)
  | k :: rest, p =>
    if EconomicLimits.isOn (k.limit l) then
      match r.checkLimit k (k.limit l) p with
      | (.error f, p) => (.error f, p)
      | (.ok (), p) => checkLimits r l rest p
    else checkLimits r l rest p

/-- Check all ratio limits: the outcome, the progress made, and what is reported. -/
def checkRatios (r : RatioSource α) (l : EconomicLimits α) (p : RatioProgress α) :
    Outcome α Unit × RatioProgress α × Journal :=
  match r.checkLimits l RatioKind.checkingOrder p with
  | (.error f, p) => (.error f, p, [])
  | (.ok (), p) =>
    let notices :=
      if EconomicLimits.isOn l.maxGasLiquidRatio then [EconomicLimits.gasLiquidNotice] else []
    if p.report.violated ∧ ¬ (p.report.worst ≠ noCompletion ∧ 1 < p.report.extent) then
      (.error .brokenExpectation, p, notices)
    else (.ok (), p, notices)

end RatioSource
end WellControl
