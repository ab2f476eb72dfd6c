import WellControl.Grid
import WellControl.Group.Mode
import WellControl.PhaseTable

/-!
# Quantities that group targets limit
-/

set_option autoImplicit false

namespace WellControl

abbrev RateQuantity (α : Type) := Grid α → Outcome α α

variable {α : Type} [Scalar α]

/-- The sum of an array's entries, each times its coefficient.  There have to be as many entries as
coefficients, all along the axis to which coefficients apply. -/
def weighted (coefficients : List α) (rates : Grid α) : Outcome α α :=
  if Grid.weightedExtent rates.shape = coefficients.length ∧
      rates.entries.length = coefficients.length then
    .ok (Scalar.dot coefficients rates.entries)
  else .error .misaligned

/-- The produced amount, positive for rates that are negative. -/
def productionQuantity (mode : GroupProductionMode) (t : PhaseTable) (coefficients : List α) :
    Outcome α (RateQuantity α) :=
  match mode with
  | .orat => .ok fun rates => do return -(← t.rateOrZero rates.line .oil)
  | .wrat => .ok fun rates => do return -(← t.rateOrZero rates.line .water)
  | .grat => .ok fun rates => do return -(← t.rateOrZero rates.line .gas)
  | .lrat => .ok fun rates => do
    let oil ← t.rateOrZero rates.line .oil
    let water ← t.rateOrZero rates.line .water
    return -(oil + water)
  | .resv => .ok fun rates => do return -(← weighted coefficients rates)
  | .none | .fld => .error (.noProductionQuantity mode)

/-- The injected amount of a phase. -/
def injectionQuantity (mode : GroupInjectionMode) (p : Phase) (t : PhaseTable)
    (coefficients : List α) : Outcome α (RateQuantity α) := do
  let _ ← t.position (α := α) p
  match mode with
  | .rate => return fun rates => t.rate rates.line p
  | .resv => return fun rates => do
    let rate ← t.rate rates.line p
    return rate * (← t.rate coefficients p)
  | .none | .fld => throw (.noInjectionQuantity mode)

end WellControl
