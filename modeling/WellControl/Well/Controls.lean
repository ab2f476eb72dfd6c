import WellControl.Range

/-!
# Controls of a well

The limits a well has to keep.  Only those whose mode is listed apply.  Rates are magnitudes; a
producer that follows its history has the observed surface rates here.
-/

set_option autoImplicit false

namespace WellControl

structure InjectionControls (α : Type) [Scalar α] where
  fluid : InjectedFluid
  modes : List InjectorMode
  bhpLimit : Limit α
  thpLimit : Limit α
  surfaceRate : Limit α
  reservoirRate : Limit α
  /-- Whether the well is predicted, as opposed to matched with its history. -/
  prediction : Bool

structure InjectionControls.Draft (α : Type) [Scalar α] where
  fluid : String
  modes : List String := []
  bhpLimit : α := 0
  thpLimit : α := 0
  surfaceRate : α := 0
  reservoirRate : α := 0
  prediction : Bool := true

structure ProductionControls (α : Type) [Scalar α] where
  modes : List ProducerMode
  bhpLimit : Limit α
  thpLimit : Limit α
  oilRate : Limit α
  waterRate : Limit α
  gasRate : Limit α
  liquidRate : Limit α
  reservoirRate : Limit α
  /-- Whether the well is predicted, as opposed to matched with its history. -/
  prediction : Bool

structure ProductionControls.Draft (α : Type) [Scalar α] where
  modes : List String := []
  bhpLimit : α := 0
  thpLimit : α := 0
  oilRate : α := 0
  waterRate : α := 0
  gasRate : α := 0
  liquidRate : α := 0
  reservoirRate : α := 0
  prediction : Bool := true

variable {α : Type} [Scalar α]

namespace InjectionControls

def ofDraft (d : Draft α) : Outcome α (InjectionControls α) := do
  let fluid ← Enumeration.read d.fluid
  let modes ← d.modes.mapM Enumeration.read
  return {
    fluid
    modes
    bhpLimit := ← Limit.check "bhp_limit" d.bhpLimit
    thpLimit := ← Limit.check "thp_limit" d.thpLimit
    surfaceRate := ← Limit.check "surface_rate" d.surfaceRate
    reservoirRate := ← Limit.check "reservoir_rate" d.reservoirRate
    prediction := d.prediction }

def has (c : InjectionControls α) (m : InjectorMode) : Bool := decide (m ∈ c.modes)

end InjectionControls

namespace ProductionControls

def ofDraft (d : Draft α) : Outcome α (ProductionControls α) := do
  let modes ← d.modes.mapM Enumeration.read
  return {
    modes
    bhpLimit := ← Limit.check "bhp_limit" d.bhpLimit
    thpLimit := ← Limit.check "thp_limit" d.thpLimit
    oilRate := ← Limit.check "oil_rate" d.oilRate
    waterRate := ← Limit.check "water_rate" d.waterRate
    gasRate := ← Limit.check "gas_rate" d.gasRate
    liquidRate := ← Limit.check "liquid_rate" d.liquidRate
    reservoirRate := ← Limit.check "resv_rate" d.reservoirRate
    prediction := d.prediction }

def has (c : ProductionControls α) (m : ProducerMode) : Bool := decide (m ∈ c.modes)

end ProductionControls
end WellControl
