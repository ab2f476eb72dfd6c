import WellControl.Catalog
import WellControl.Fault

/-!
# Record of closures

Which wells were closed, for which reason and when, and which completions.  A closure that is
recorded stays as it is until the well is opened or the completion is dropped.
-/

set_option autoImplicit false

namespace WellControl

inductive ClosureReason where
  | none
  | physical
  | economic
  | group
  | thpDesign
  | completion
deriving DecidableEq, Repr

instance : Enumeration ClosureReason where
  title := "ClosureReason"
  members := [.none, .physical, .economic, .group, .thpDesign, .completion]
  name
    | .none => "none"
    | .physical => "physical"
    | .economic => "economic"
    | .group => "group"
    | .thpDesign => "thp_design"
    | .completion => "completion"

/-- The time of each closure, by well and reason and by well and completion. -/
structure ClosureRecord (α : Type) where
  wells : Catalog (String × ClosureReason) α
  completions : Catalog (String × Int) α

namespace ClosureRecord
variable {α : Type}

def empty : ClosureRecord α := ⟨.empty, .empty⟩

/-- Record that a well is closed.  The flag says whether it was not before. -/
def closeWell (c : ClosureRecord α) (name : String) (reason : ClosureReason) (time : α) :
    Bool × ClosureRecord α :=
  let (new, wells) := c.wells.insertNew (name, reason) time
  (new, { c with wells })

/-- Record that a completion is closed.  The flag says whether it was not before. -/
def closeCompletion (c : ClosureRecord α) (name : String) (completion : Int) (time : α) :
    Bool × ClosureRecord α :=
  let (new, completions) := c.completions.insertNew (name, completion) time
  (new, { c with completions })

def hasWell (c : ClosureRecord α) (name : String) : Option ClosureReason → Bool
  | some reason => c.wells.has (name, reason)
  | none => c.wells.keys.any fun k => k.1 = name

def hasCompletion (c : ClosureRecord α) (name : String) (completion : Int) : Bool :=
  c.completions.has (name, completion)

def closedWells (c : ClosureRecord α) (name : Option String) :
    List ((String × ClosureReason) × α) :=
  c.wells.entries.filter fun e => name.all (· = e.1.1)

def reasons (c : ClosureRecord α) (name : String) : List ClosureReason :=
  (c.closedWells name).map fun e => e.1.2

/-- The completions of a well that are closed, in the order they were closed. -/
def closedCompletions (c : ClosureRecord α) (name : String) : List Int :=
  (c.completions.keys.filter fun k => k.1 = name).map Prod.snd

/-- Forget the closures of a well, for one reason or for any. -/
def openWell (c : ClosureRecord α) (name : String) : Option ClosureReason → ClosureRecord α
  | some reason => { c with wells := c.wells.erase (name, reason) }
  | none => { c with wells := c.wells.keepKeys fun k => decide (k.1 ≠ name) }

def dropCompletion (c : ClosureRecord α) (name : String) (completion : Int) : ClosureRecord α :=
  { c with completions := c.completions.erase (name, completion) }

end ClosureRecord
end WellControl
