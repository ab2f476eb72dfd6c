import WellControl.Scalar
import WellControl.Fault

/-!
# Phase tables

A phase table lists the active phases of a model.  The place of a phase in the list is its
position in every rate array, so an array of the model has one entry per active phase, and an
inactive phase has no entry to read.
-/

set_option autoImplicit false

namespace WellControl

structure PhaseTable where
  active : List Phase
  inhabited : active ≠ []
  distinct : active.Nodup

namespace PhaseTable

/-- The table of the phases in the order given. -/
def ofList {α : Type} (active : List Phase) : Outcome α PhaseTable :=
  if empty : active = [] then .error .noActivePhase
  else if distinct : active.Nodup then .ok ⟨active, empty, distinct⟩
  else .error (.duplicatePhases active)

/-- The table of a set of phases, in canonical order. -/
def ofSet {α : Type} (phases : List Phase) : Outcome α PhaseTable :=
  ofList (Phase.canonical.filter fun p => p ∈ phases)

def blackOil : PhaseTable := ⟨Phase.canonical, by decide, Phase.canonical_nodup⟩

def size (t : PhaseTable) : Nat := t.active.length

def has (t : PhaseTable) (p : Phase) : Bool := decide (p ∈ t.active)

section Arrays
variable {α : Type}

def position (t : PhaseTable) (p : Phase) : Outcome α Nat :=
  match t.active.idxOf? p with
  | some i => .ok i
  | none => .error (.inactivePhase p)

/-- The entry of an array for an active phase. -/
def rate (t : PhaseTable) (rates : List α) (p : Phase) : Outcome α α := do
  let i ← t.position p
  match rates[i]? with
  | some x => .ok x
  | none => .error .missingRate

variable [Scalar α]

/-- The entry of an array for a phase, none flowing if the phase is inactive. -/
def rateOrZero (t : PhaseTable) (rates : List α) (p : Phase) : Outcome α α :=
  if t.has p then t.rate rates p else .ok 0

/-- The same for an array known to be long enough: zero stands for a missing entry. -/
def entry (t : PhaseTable) (rates : List α) (p : Phase) : α :=
  match t.active.idxOf? p with
  | some i => rates.getD i 0
  | none => 0

def zeros (t : PhaseTable) : List α := List.replicate t.size 0

def store (t : PhaseTable) (array : List α) (p : Phase) (x : α) : Outcome α (List α) := do
  let i ← t.position p
  return array.set i x

/-- The array that holds the last rate given for each phase, and zero for a phase that none is
given for. -/
def toArray (t : PhaseTable) (rates : List (Phase × α)) : Outcome α (List α) :=
  rates.foldlM (fun array r => t.store array r.1 r.2) t.zeros

/-- The same for phases given by name, each name being read when its turn comes. -/
def toArrayNamed (t : PhaseTable) (rates : List (String × α)) : Outcome α (List α) :=
  rates.foldlM
    (fun array r => do
      let p ← Enumeration.read r.1
      t.store array p r.2)
    t.zeros

end Arrays
end PhaseTable
end WellControl
