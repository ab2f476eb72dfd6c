import WellControl.Range

/-!
# Constants of an evaluation
-/

set_option autoImplicit false

namespace WellControl

/-- The id that stands for "no completion" in a ratio report. -/
def noCompletion : Int := 2147483647

structure Constants (α : Type) [Scalar α] where
  /-- The ratio of a rate that flows to one that does not. -/
  ratioSentinel : Positive α
  /-- Fluid-in-place region at whose conditions rates are converted. -/
  fipRegion : Nat
  /-- Rates at or below this count as none when a group target is shared. -/
  rateEpsilon : NonNegative α

inductive ConstantName where
  | ratioSentinel
  | fipRegion
  | rateEpsilon
deriving DecidableEq, Repr

instance : Enumeration ConstantName where
  title := "Constants"
  members := [.ratioSentinel, .fipRegion, .rateEpsilon]
  name
    | .ratioSentinel => "RATIO_SENTINEL"
    | .fipRegion => "RESERVOIR_RATE_FIP_REGION"
    | .rateEpsilon => "GROUP_RATE_EPSILON"

def ConstantName.read {α : Type} (text : String) : Outcome α ConstantName :=
  match Enumeration.find? text with
  | some n => .ok n
  | none => .error .unknownConstant

inductive Constants.Change (α : Type) where
  | ratioSentinel (x : α)
  | fipRegion (n : Int)
  | rateEpsilon (x : α)

/-- Constants as they are written, before they are checked. -/
structure Constants.Draft (α : Type) [Scalar α] where
  ratioSentinel : α := 1e100
  fipRegion : Int := 0
  rateEpsilon : α := 1e-12

namespace Constants
variable {α : Type} [Scalar α]

/-- The constants that hold unless others are made current. -/
def standard : Constants α :=
  ⟨⟨1e100, Scalar.unbounded_pos⟩, 0, ⟨1e-12, Scalar.negligible_nonneg⟩⟩

instance : Inhabited (Constants α) := ⟨standard⟩

def change (c : Constants α) : Change α → Outcome α (Constants α)
  | .ratioSentinel x => do
    return { c with ratioSentinel :=
      ← Positive.check (Enumeration.name ConstantName.ratioSentinel) (.real 0) x }
  | .fipRegion n => do
    return { c with fipRegion := ← checkNatural (Enumeration.name ConstantName.fipRegion) n }
  | .rateEpsilon x => do
    return { c with rateEpsilon :=
      ← NonNegative.check (Enumeration.name ConstantName.rateEpsilon) (.real 0) x }

def ofDraft (d : Draft α) : Outcome α (Constants α) := do
  let c ← standard.change (.ratioSentinel d.ratioSentinel)
  let c ← c.change (.fipRegion d.fipRegion)
  c.change (.rateEpsilon d.rateEpsilon)

def value (c : Constants α) : ConstantName → Number α
  | .ratioSentinel => .real c.ratioSentinel.val
  | .fipRegion => .whole c.fipRegion
  | .rateEpsilon => .real c.rateEpsilon.val

end Constants
end WellControl
