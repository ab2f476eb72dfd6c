import WellControl.Enumeration

/-!
# Fluid phases
-/

set_option autoImplicit false

namespace WellControl

inductive Phase where
  | water
  | oil
  | gas
deriving DecidableEq, Repr

namespace Phase

/-- All phases in the order in which a model lists them unless told otherwise. -/
def canonical : List Phase := [water, oil, gas]

instance : Enumeration Phase where
  title := "Phase"
  members := canonical
  name
    | water => "water"
    | oil => "oil"
    | gas => "gas"

theorem mem_canonical (p : Phase) : p ∈ canonical := by cases p <;> decide

theorem canonical_nodup : canonical.Nodup := by decide

end Phase
end WellControl
