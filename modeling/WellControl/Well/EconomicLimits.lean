import WellControl.Economic.Policy
import WellControl.Range

/-!
# Economic limits of a producer

A limit is on if it is set and above zero.
-/

set_option autoImplicit false

namespace WellControl

structure EconomicLimits (α : Type) [Scalar α] where
  minOilRate : Option (NonNegative α)
  minGasRate : Option (NonNegative α)
  /-- Least rate of oil and water together. -/
  minLiquidRate : Option (NonNegative α)
  /-- Reported, but not compared with any rate. -/
  minReservoirFluidRate : Option (NonNegative α)
  maxWaterCut : Option (NonNegative α)
  maxGasOilRatio : Option (NonNegative α)
  maxWaterGasRatio : Option (NonNegative α)
  /-- Reported, but not compared with any ratio. -/
  maxGasLiquidRatio : Option (NonNegative α)
  workover : Workover
  quantityLimit : QuantityLimit
  /-- Whether the run should end with the well.  Reported only. -/
  endRun : Bool
  /-- Well to open once this one is closed.  Reported only. -/
  followonWell : Option String

structure EconomicLimits.Draft (α : Type) [Scalar α] where
  minOilRate : Option α := none
  minGasRate : Option α := none
  minLiquidRate : Option α := none
  minReservoirFluidRate : Option α := none
  maxWaterCut : Option α := none
  maxGasOilRatio : Option α := none
  maxWaterGasRatio : Option α := none
  maxGasLiquidRatio : Option α := none
  workover : String := "none"
  quantityLimit : String := "rate"
  endRun : Bool := false
  followonWell : Option String := none

namespace EconomicLimits
variable {α : Type} [Scalar α]

def ofDraft (d : Draft α) : Outcome α (EconomicLimits α) := do
  let workover ← Enumeration.read d.workover
  let quantityLimit ← Enumeration.read d.quantityLimit
  return {
    minOilRate := ← NonNegative.checkOptional "min_oil_rate" d.minOilRate
    minGasRate := ← NonNegative.checkOptional "min_gas_rate" d.minGasRate
    minLiquidRate := ← NonNegative.checkOptional "min_liquid_rate" d.minLiquidRate
    minReservoirFluidRate :=
      ← NonNegative.checkOptional "min_reservoir_fluid_rate" d.minReservoirFluidRate
    maxWaterCut := ← NonNegative.checkOptional "max_water_cut" d.maxWaterCut
    maxGasOilRatio := ← NonNegative.checkOptional "max_gas_oil_ratio" d.maxGasOilRatio
    maxWaterGasRatio := ← NonNegative.checkOptional "max_water_gas_ratio" d.maxWaterGasRatio
    maxGasLiquidRatio :=
      ← NonNegative.checkOptional "max_gas_liquid_ratio" d.maxGasLiquidRatio
    workover
    quantityLimit
    endRun := d.endRun
    followonWell := d.followonWell }

/-- A limit that applies, if it is on. -/
def active? (limit : Option (NonNegative α)) : Option (NonNegative α) :=
  limit.filter fun x => 0 < x.val

def isOn (limit : Option (NonNegative α)) : Bool := (active? limit).isSome

def anyRateLimit (l : EconomicLimits α) : Bool :=
  isOn l.minOilRate || isOn l.minGasRate || isOn l.minLiquidRate || isOn l.minReservoirFluidRate

def anyRatioLimit (l : EconomicLimits α) : Bool :=
  isOn l.maxWaterCut || isOn l.maxGasOilRatio || isOn l.maxWaterGasRatio ||
    isOn l.maxGasLiquidRatio

def anyLimit (l : EconomicLimits α) : Bool := l.anyRateLimit || l.anyRatioLimit

/-- Whether a well is named to be opened next. -/
def hasFollowonWell (l : EconomicLimits α) : Bool := l.followonWell.any (· ≠ "")

end EconomicLimits
end WellControl
