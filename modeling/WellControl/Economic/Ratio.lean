import WellControl.Constants.Basic
import WellControl.PhaseTable
import WellControl.Well.EconomicLimits

/-!
# Ratios of rates
-/

set_option autoImplicit false

namespace WellControl

/-- The ratios that economic limits bound. -/
inductive RatioKind where
  | waterCut
  | gasOil
  | waterGas
deriving DecidableEq, Repr

instance : Enumeration RatioKind where
  title := "Ratio"
  members := [.waterCut, .gasOil, .waterGas]
  name
    | .waterCut => "water_cut"
    | .gasOil => "gas_oil_ratio"
    | .waterGas => "water_gas_ratio"

namespace RatioKind

/-- All ratios in the order in which their limits are checked. -/
def checkingOrder : List RatioKind := [waterCut, gasOil, waterGas]

/-- The phases a ratio is made of, in the order their rates are read. -/
def phases : RatioKind → Phase × Phase
  | waterCut => (.oil, .water)
  | gasOil => (.gas, .oil)
  | waterGas => (.water, .gas)

variable {α : Type} [Scalar α]

def limit (l : EconomicLimits α) : RatioKind → Option (NonNegative α)
  | waterCut => l.maxWaterCut
  | gasOil => l.maxGasOilRatio
  | waterGas => l.maxWaterGasRatio

/-- One rate over another.  A rate over none is the sentinel, so that it exceeds any limit. -/
def quotient (c : Constants α) (numerator denominator : α) : α :=
  if denominator != 0 then numerator / denominator
  else if numerator != 0 then c.ratioSentinel.val
  else 0

/-- The water in the liquid; none in no liquid. -/
def cut (oil water : α) : α :=
  let liquid := oil + water
  if liquid != 0 then water / liquid else 0

/-- The ratio of an array of rates.  The two rates have to flow in the same direction. -/
def ratio (k : RatioKind) (c : Constants α) (t : PhaseTable) (rates : List α) :
    Outcome α α := do
  let first ← t.rate rates k.phases.1
  let second ← t.rate rates k.phases.2
  if 0 ≤ first * second then
    match k with
    | waterCut => return cut first second
    | gasOil | waterGas => return quotient c first second
  else throw .opposedRates

end RatioKind
end WellControl
