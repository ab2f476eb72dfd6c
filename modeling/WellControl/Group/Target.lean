import WellControl.Catalog
import WellControl.Group.Mode
import WellControl.Range

/-!
# Groups and their targets

A group may have one target for what its wells produce and one for each phase they inject.
-/

set_option autoImplicit false

namespace WellControl

/-- Targets for produced rates.  Only the one of the mode applies. -/
structure ProductionTarget (α : Type) [Scalar α] where
  mode : GroupProductionMode
  oil : Option (NonNegative α)
  water : Option (NonNegative α)
  gas : Option (NonNegative α)
  liquid : Option (NonNegative α)
  reservoir : Option (NonNegative α)

structure ProductionTarget.Draft (α : Type) [Scalar α] where
  mode : String := "none"
  oil : Option α := none
  water : Option α := none
  gas : Option α := none
  liquid : Option α := none
  reservoir : Option α := none

/-- Targets for the injected rate of a phase.  Only the one of the mode applies. -/
structure InjectionTarget (α : Type) [Scalar α] where
  mode : GroupInjectionMode
  surface : Option (NonNegative α)
  reservoir : Option (NonNegative α)

structure InjectionTarget.Draft (α : Type) [Scalar α] where
  mode : String := "none"
  surface : Option α := none
  reservoir : Option α := none

structure WellGroup (α : Type) [Scalar α] where
  name : String
  parent : Option String
  production : Option (ProductionTarget α)
  injection : Catalog Phase (InjectionTarget α)

structure WellGroup.Draft (α : Type) [Scalar α] where
  name : String
  parent : Option String := none
  production : Option (ProductionTarget.Draft α) := none
  injection : List (String × InjectionTarget.Draft α) := []

variable {α : Type} [Scalar α]

namespace ProductionTarget

def ofDraft (d : Draft α) : Outcome α (ProductionTarget α) := do
  let mode ← Enumeration.read d.mode
  return {
    mode
    oil := ← NonNegative.checkOptional "oil_target" d.oil
    water := ← NonNegative.checkOptional "water_target" d.water
    gas := ← NonNegative.checkOptional "gas_target" d.gas
    liquid := ← NonNegative.checkOptional "liquid_target" d.liquid
    reservoir := ← NonNegative.checkOptional "resv_target" d.reservoir }

/-- The target that applies, if there is one. -/
def target? (t : ProductionTarget α) : Option (NonNegative α) :=
  match t.mode with
  | .orat => t.oil
  | .wrat => t.water
  | .grat => t.gas
  | .lrat => t.liquid
  | .resv => t.reservoir
  | .none | .fld => none

end ProductionTarget

namespace InjectionTarget

def ofDraft (d : Draft α) : Outcome α (InjectionTarget α) := do
  let mode ← Enumeration.read d.mode
  return {
    mode
    surface := ← NonNegative.checkOptional "surface_max_rate" d.surface
    reservoir := ← NonNegative.checkOptional "resv_max_rate" d.reservoir }

/-- The target that applies, if there is one. -/
def target? (t : InjectionTarget α) : Option (NonNegative α) :=
  match t.mode with
  | .rate => t.surface
  | .resv => t.reservoir
  | .none | .fld => none

end InjectionTarget

namespace WellGroup

/-- The targets are checked before the phases they are given for are read. -/
def ofDraft (d : Draft α) : Outcome α (WellGroup α) := do
  let production ← d.production.mapM ProductionTarget.ofDraft
  let targets ← d.injection.mapM fun e => InjectionTarget.ofDraft e.2
  let phases ← d.injection.mapM fun e => Enumeration.read e.1
  return ⟨d.name, d.parent, production, Catalog.ofList (phases.zip targets)⟩

end WellGroup
end WellControl
