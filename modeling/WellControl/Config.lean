import WellControl.Constants.Basic

/-!
# Configuration of a run
-/

set_option autoImplicit false

namespace WellControl

structure Config (α : Type) [Scalar α] where
  /-- Whether closures are reported.  Warnings always are. -/
  writeMessages : Bool
  constants : Constants α
  /-- Level at which information is replayed. -/
  logLevel : Nat

structure Config.Draft (α : Type) [Scalar α] where
  writeMessages : Bool := true
  constants : Constants.Draft α := {}
  logLevel : Int := 20

namespace Config
variable {α : Type} [Scalar α]

def standard : Config α := ⟨true, .standard, 20⟩

def ofDraft (d : Draft α) : Outcome α (Config α) := do
  let constants ← Constants.ofDraft d.constants
  let logLevel ← checkNatural "log_level" d.logLevel
  return ⟨d.writeMessages, constants, logLevel⟩

end Config
end WellControl
