import WellControl.Enumeration

/-!
# Modes of group targets

`fld` leaves a group to the target of the field above it.
-/

set_option autoImplicit false

namespace WellControl

inductive GroupProductionMode where
  | none
  | orat
  | wrat
  | grat
  | lrat
  | resv
  | fld
deriving DecidableEq, Repr

instance : Enumeration GroupProductionMode where
  title := "GroupProductionMode"
  members := [.none, .orat, .wrat, .grat, .lrat, .resv, .fld]
  name
    | .none => "none"
    | .orat => "orat"
    | .wrat => "wrat"
    | .grat => "grat"
    | .lrat => "lrat"
    | .resv => "resv"
    | .fld => "fld"

inductive GroupInjectionMode where
  | none
  | rate
  | resv
  | fld
deriving DecidableEq, Repr

instance : Enumeration GroupInjectionMode where
  title := "GroupInjectionMode"
  members := [.none, .rate, .resv, .fld]
  name
    | .none => "none"
    | .rate => "rate"
    | .resv => "resv"
    | .fld => "fld"

end WellControl
