import WellControl.Scalar
import WellControl.Fault

/-!
# Numbers with a range

The ranges that fields of a model admit, as subtypes, and the checks that put a number there.
A check succeeds only if the comparison it names holds, so a not-a-number fails it; a `Limit`
is refused only if it is below zero, so a not-a-number passes.
-/

set_option autoImplicit false

namespace WellControl

section
variable (α : Type) [Scalar α]

abbrev Positive := { x : α // 0 < x }

abbrev NonNegative := { x : α // 0 ≤ x }

/-- A number that is not below zero. -/
abbrev Limit := { x : α // ¬ x < 0 }

/-- A share of the time, none excluded and all included. -/
abbrev Fraction := { x : α // 0 < x ∧ x ≤ 1 }

end

variable {α : Type} [Scalar α]

def Positive.check (field : String) (bound : Number α) (x : α) : Outcome α (Positive α) :=
  if h : 0 < x then .ok ⟨x, h⟩ else .error (.outOfRange field .above bound (.real x))

def NonNegative.check (field : String) (bound : Number α) (x : α) :
    Outcome α (NonNegative α) :=
  if h : 0 ≤ x then .ok ⟨x, h⟩ else .error (.outOfRange field .atLeast bound (.real x))

def NonNegative.checkOptional (field : String) : Option α → Outcome α (Option (NonNegative α))
  | none => .ok none
  | some x => some <$> NonNegative.check field (.real 0) x

def Limit.check (field : String) (x : α) : Outcome α (Limit α) :=
  if h : x < 0 then .error (.negativeLimit field x) else .ok ⟨x, h⟩

def Fraction.check (field : String) (x : α) : Outcome α (Fraction α) :=
  if above : 0 < x then
    if below : x ≤ 1 then .ok ⟨x, above, below⟩
    else .error (.outOfRange field .atMost (.whole 1) (.real x))
  else .error (.outOfRange field .above (.whole 0) (.real x))

/-- A whole number that is not below zero. -/
def checkNatural (field : String) (n : Int) : Outcome α Nat :=
  match n with
  | .ofNat m => .ok m
  | .negSucc _ => .error (.outOfRange field .atLeast (.whole 0) (.whole n))

end WellControl
