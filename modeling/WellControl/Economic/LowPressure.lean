import WellControl.Control.Evaluator

/-!
# Closing wells of low pressure
-/

set_option autoImplicit false

namespace WellControl

/-- A physical check that closes a well whose bottom-hole pressure is below a bound, and says
whether the closure is a new one.  The reason is looked at only then. -/
def lowPressureCheck {α : Type} [Scalar α] (reason : Outcome α ClosureReason) (bound : α) :
    PhysicalCheck α := fun w s time writeMessages b =>
  if s.bhp < bound then
    match reason with
    | .error f => (.error f, b)
    | .ok reason =>
      let (new, closures) := b.closures.closeWell w.name reason time
      let message := "hook " ++ w.name ++ if new then " new" else " old"
      (.ok (), { b with
        closures
        journal := if writeMessages then b.journal ++ [.info message] else b.journal })
  else (.ok (), b)

end WellControl
