import WellControl.Catalog
import WellControl.Grid
import WellControl.PhaseTable
import WellControl.Region

/-!
# Reservoir voidage

Surface rates are converted to reservoir rates at the conditions of a region, named by its
fluid-in-place and its PVT region.  `RateConverter` is what an evaluation needs of a
conversion; `FormationVolume` is the conversion by formation volume factors and dissolution
ratios.
-/

set_option autoImplicit false

namespace WellControl

structure RateConverter (α : Type) where
  /-- Reservoir rates, per phase, of the surface rates. -/
  voidage : (fip pvt : Int) → Grid α → Outcome α (List α)
  /-- Coefficients whose dot product with the surface rates is the total reservoir rate. -/
  coefficients : (fip pvt : Int) → Outcome α (List α)

/-- Region properties by (fluid-in-place, PVT) region, with a fallback for the others. -/
structure FormationVolume (α : Type) [Scalar α] where
  table : PhaseTable
  regions : Catalog (Int × Int) (Region α)
  fallback : Option (Region α)

namespace FormationVolume
variable {α : Type} [Scalar α]

def region (c : FormationVolume α) (fip pvt : Int) : Outcome α (Region α) :=
  match (c.regions.get? (fip, pvt)).or c.fallback with
  | some r => .ok r
  | none => .error (.undefinedRegion fip pvt)

/-- Gas dissolves in oil, and oil vaporizes into gas, only if the model carries both. -/
def mixes (c : FormationVolume α) : Bool := c.table.has .oil && c.table.has .gas

def dissolved (c : FormationVolume α) (r : Region α) : α :=
  if c.mixes then r.dissolved.val else 0

def vaporized (c : FormationVolume α) (r : Region α) : α :=
  if c.mixes then r.vaporized.val else 0

def determinant (c : FormationVolume α) (r : Region α) : α :=
  1 - c.dissolved r * c.vaporized r

/-- Reservoir rate of one phase: what its surface rate leaves after the exchange between oil and
gas, in reservoir volumes. -/
def phaseVoidage (c : FormationVolume α) (r : Region α) (rates : List α) : Phase → α
  | .water => c.table.entry rates .water * r.waterFactor.val
  | .oil =>
    (c.table.entry rates .oil - c.vaporized r * c.table.entry rates .gas) * r.oilFactor.val
      / c.determinant r
  | .gas =>
    (c.table.entry rates .gas - c.dissolved r * c.table.entry rates .oil) * r.gasFactor.val
      / c.determinant r

def voidage (c : FormationVolume α) (fip pvt : Int) (rates : Grid α) : Outcome α (List α) := do
  if rates.shape ≠ [c.table.size] then throw (.rateCount c.table.size rates.shape)
  let r ← c.region fip pvt
  return c.table.active.map (c.phaseVoidage r rates.line)

def phaseCoefficient (c : FormationVolume α) (r : Region α) : Phase → α
  | .water => r.waterFactor.val
  | .oil => (r.oilFactor.val - c.dissolved r * r.gasFactor.val) / c.determinant r
  | .gas => (r.gasFactor.val - c.vaporized r * r.oilFactor.val) / c.determinant r

def coefficients (c : FormationVolume α) (fip pvt : Int) : Outcome α (List α) := do
  let r ← c.region fip pvt
  return c.table.active.map (c.phaseCoefficient r)

def converter (c : FormationVolume α) : RateConverter α := ⟨c.voidage, c.coefficients⟩

end FormationVolume
end WellControl
