import WellControl.Well.Basic

/-!
# Collections of wells

A collection lists its injectors before its producers.  It is accepted if no name is given twice.
-/

set_option autoImplicit false

namespace WellControl

structure Wells (α : Type) [Scalar α] where
  injectors : List (Injector α)
  producers : List (Producer α)

/-- The texts that occur more than once, each once and in order. -/
def repeated (names : List String) : List String :=
  (names.filter fun n => 1 < names.count n).eraseDups.mergeSort fun a b => decide (a ≤ b)

namespace Wells
variable {α : Type} [Scalar α]

def all (ws : Wells α) : List (Well α) :=
  ws.injectors.map Well.injector ++ ws.producers.map Well.producer

def names (ws : Wells α) : List String := ws.all.map Well.name

def split (wells : List (Well α)) : Wells α :=
  ⟨wells.filterMap Well.injector?, wells.filterMap Well.producer?⟩

/-- The collection, unless two of its wells share a name. -/
def accept (ws : Wells α) : Outcome α (Wells α) :=
  if repeated ws.names = [] then .ok ws else .error (.duplicateWells (repeated ws.names))

def find? (ws : Wells α) (name : String) : Option (Well α) := ws.all.find? fun w => w.name = name

def get (ws : Wells α) (name : String) : Outcome α (Well α) :=
  match ws.find? name with
  | some w => .ok w
  | none => .error (.unlisted name)

def inGroup (ws : Wells α) (group : String) : List (Well α) :=
  ws.all.filter fun w => w.groupName = group

end Wells
end WellControl
