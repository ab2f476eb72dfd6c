import WellControl.Phase

/-!
# Control modes

A well runs on one control mode at a time: one of its own limits, its group's target (`grup`),
or none yet.
-/

set_option autoImplicit false

namespace WellControl

/-- The fluid an injector is declared to inject. -/
inductive InjectedFluid where
  | water
  | oil
  | gas
  | multi
deriving DecidableEq, Repr

/-- The phase of a declared fluid; a mixture has none. -/
def InjectedFluid.phase? : InjectedFluid → Option Phase
  | water => some .water
  | oil => some .oil
  | gas => some .gas
  | multi => none

instance : Enumeration InjectedFluid where
  title := "InjectorType"
  members := [.water, .oil, .gas, .multi]
  name
    | .water => "water"
    | .oil => "oil"
    | .gas => "gas"
    | .multi => "multi"

inductive InjectorMode where
  | none
  | bhp
  | rate
  | resv
  | thp
  | grup
deriving DecidableEq, Repr

namespace InjectorMode

instance : Enumeration InjectorMode where
  title := "InjectorControlMode"
  members := [none, bhp, rate, resv, thp, grup]
  name
    | none => "none"
    | bhp => "bhp"
    | rate => "rate"
    | resv => "resv"
    | thp => "thp"
    | grup => "grup"

/-- The modes that stand for a limit of the well's own, in the order they are visited. -/
def visitingOrder : List InjectorMode := [bhp, rate, resv, thp]

end InjectorMode

inductive ProducerMode where
  | none
  | bhp
  | orat
  | wrat
  | grat
  | lrat
  | resv
  | thp
  | grup
deriving DecidableEq, Repr

namespace ProducerMode

instance : Enumeration ProducerMode where
  title := "ProducerControlMode"
  members := [none, bhp, orat, wrat, grat, lrat, resv, thp, grup]
  name
    | none => "none"
    | bhp => "bhp"
    | orat => "orat"
    | wrat => "wrat"
    | grat => "grat"
    | lrat => "lrat"
    | resv => "resv"
    | thp => "thp"
    | grup => "grup"

/-- The modes that stand for a limit of the well's own, in the order they are visited. -/
def visitingOrder : List ProducerMode := [bhp, orat, wrat, grat, lrat, resv, thp]

end ProducerMode
end WellControl
