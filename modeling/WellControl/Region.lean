import WellControl.Range

/-!
# Black-oil properties of a region
-/

set_option autoImplicit false

namespace WellControl

/-- Formation volume factors turn surface volumes into reservoir volumes; the two ratios say how
much gas is dissolved in the oil and how much oil is vaporized in the gas. -/
structure Region (α : Type) [Scalar α] where
  waterFactor : Positive α
  oilFactor : Positive α
  gasFactor : Positive α
  /-- Dissolved gas-oil ratio, Rs. -/
  dissolved : NonNegative α
  /-- Vaporized oil-gas ratio, Rv. -/
  vaporized : NonNegative α
  separable : ¬ 1 ≤ dissolved.val * vaporized.val

/-- A region as it is written, before its numbers are checked. -/
structure Region.Draft (α : Type) [Scalar α] where
  waterFactor : α := 1
  oilFactor : α := 1
  gasFactor : α := 1
  dissolved : α := 0
  vaporized : α := 0

namespace Region
variable {α : Type} [Scalar α]

def ofDraft (d : Draft α) : Outcome α (Region α) := do
  let waterFactor ← Positive.check "water_formation_volume_factor" (.whole 0) d.waterFactor
  let oilFactor ← Positive.check "oil_formation_volume_factor" (.whole 0) d.oilFactor
  let gasFactor ← Positive.check "gas_formation_volume_factor" (.whole 0) d.gasFactor
  let dissolved ← NonNegative.check "solution_gas_oil_ratio" (.whole 0) d.dissolved
  let vaporized ← NonNegative.check "vaporized_oil_gas_ratio" (.whole 0) d.vaporized
  if h : 1 ≤ dissolved.val * vaporized.val then .error .inseparable
  else .ok ⟨waterFactor, oilFactor, gasFactor, dissolved, vaporized, h⟩

end Region
end WellControl
