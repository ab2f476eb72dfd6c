import WellControl.Group.Target
import WellControl.Well.Collection

/-!
# Schedule of a run

A schedule defines groups, and from some steps on other definitions of some of them.
-/

set_option autoImplicit false

namespace WellControl

abbrev Groups (α : Type) [Scalar α] := Catalog String (WellGroup α)

structure Schedule (α : Type) [Scalar α] where
  groups : Groups α
  wells : Wells α
  /-- Definitions that take over at a step, by that step. -/
  overrides : Catalog Int (Groups α)

/-- The entry with the greatest key, the first of several. -/
def latest? {β : Type} : List (Int × β) → Option (Int × β)
  | [] => none
  | e :: rest =>
    match latest? rest with
    | some best => if e.1 < best.1 then some best else some e
    | none => some e

namespace Schedule
variable {α : Type} [Scalar α]

/-- The definitions of a group that have taken over by a step, each with the step it did. -/
def definitions (s : Schedule α) (name : String) (step : Int) : List (Int × WellGroup α) :=
  s.overrides.entries.filterMap fun e =>
    if e.1 ≤ step then (e.2.get? name).map fun g => (e.1, g) else none

/-- The definition in effect at a step: the last one to take over, else the one the run starts
with. -/
def group? (s : Schedule α) (name : String) (step : Int) : Option (WellGroup α) :=
  ((latest? (s.definitions name step)).map Prod.snd).or (s.groups.get? name)

def group (s : Schedule α) (name : String) (step : Int) : Outcome α (WellGroup α) :=
  match s.group? name step with
  | some g => .ok g
  | none => .error (.undefinedGroup name step)

end Schedule
end WellControl
