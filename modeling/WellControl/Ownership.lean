import WellControl.Rates

/-!
# Ownership of connections

The connections of a well may be spread over several processes.  Each owns some of them and adds
up their rates; a reduction replaces such a sum by the sum over all processes.
-/

set_option autoImplicit false

namespace WellControl

structure Ownership (α : Type) where
  /-- The connections owned here; all of them if there is no list. -/
  owned : Option (List Int)
  /-- The reduction of an array, given the number of reductions since the check began. -/
  reduce : Nat → List α → Outcome α (List α)

namespace Ownership
variable {α : Type}

/-- A single process, which owns everything. -/
def serial : Ownership α := ⟨none, fun _ rates => .ok rates⟩

def isOwner (o : Ownership α) (connection : Int) : Bool :=
  o.owned.all fun l => l.contains connection

variable [Scalar α]

/-- The reduction where the other processes contribute fixed rates. -/
def adding (remote : List α) : Nat → List α → Outcome α (List α) := fun _ rates =>
  Rates.add rates remote

end Ownership
end WellControl
