import WellControl.Enumeration

/-!
# Economic policies
-/

set_option autoImplicit false

namespace WellControl

/-- What a minimum rate is compared with: the rates of the moment or the well's potentials. -/
inductive QuantityLimit where
  | rate
  | potn
deriving DecidableEq, Repr

instance : Enumeration QuantityLimit where
  title := "QuantityLimit"
  members := [.rate, .potn]
  name
    | .rate => "rate"
    | .potn => "potn"

/-- What is done when a ratio limit is exceeded: nothing, close the worst completion (`con`),
close the well (`well`), or a workover that is only reported. -/
inductive Workover where
  | none
  | con
  | conPlus
  | well
  | plug
  | last
  | red
deriving DecidableEq, Repr

instance : Enumeration Workover where
  title := "EconomicWorkover"
  members := [.none, .con, .conPlus, .well, .plug, .last, .red]
  name
    | .none => "none"
    | .con => "con"
    | .conPlus => "+con"
    | .well => "well"
    | .plug => "plug"
    | .last => "last"
    | .red => "red"

end WellControl
