import WellControl.Catalog
import WellControl.Grid
import WellControl.PhaseTable

/-!
# Operating state of wells

Injection rates are positive, production rates negative.
-/

set_option autoImplicit false

namespace WellControl

inductive WellStatus where
  | open
  | stop
  | shut
deriving DecidableEq, Repr

instance : Enumeration WellStatus where
  title := "WellStatus"
  members := [.open, .stop, .shut]
  name
    | .open => "open"
    | .stop => "stop"
    | .shut => "shut"

structure WellState (α : Type) where
  name : String
  surfaceRates : Grid α
  reservoirRates : Grid α
  bhp : α
  thp : α
  potentials : Option (Grid α)
  /-- Surface rates of each connection, one row per connection. -/
  perforationRates : Grid α
  injectionControl : InjectorMode
  productionControl : ProducerMode
  status : WellStatus

structure WellState.Draft (α : Type) [Scalar α] where
  name : String
  surfaceRates : Nested α
  reservoirRates : Nested α
  bhp : α := 0
  thp : α := 0
  potentials : Option (Nested α) := none
  perforationRates : Nested α := .list []
  injectionControl : String := "none"
  productionControl : String := "none"
  status : String := "open"

/-- A state through which nothing flows, with a row for each of `connections` connections. -/
def WellState.Draft.zeros {α : Type} [Scalar α] (name : String) (t : PhaseTable) :
    (connections : Int) → Outcome α (WellState.Draft α)
  | .negSucc _ => .error .negativeExtent
  | .ofNat connections =>
    let row : Nested α := .list (t.zeros.map .value)
    .ok {
      name
      surfaceRates := row
      reservoirRates := row
      potentials := some row
      perforationRates := .list (List.replicate connections row) }

inductive WellState.Change (α : Type) where
  | name (text : String)
  | surfaceRates (data : Nested α)
  | reservoirRates (data : Nested α)
  | bhp (x : α)
  | thp (x : α)
  | potentials (data : Option (Nested α))
  | perforationRates (data : Nested α)
  | injectionControl (text : String)
  | productionControl (text : String)
  | status (text : String)

namespace WellState
variable {α : Type}

/-- Read perforation rates.  A plain empty list stands for no connections. -/
def readPerforations (data : Nested α) : Outcome α (Grid α) := do
  let g ← Grid.read data
  if g.shape = [0] then return .noRows else return g

def readOptional : Option (Nested α) → Outcome α (Option (Grid α))
  | none => .ok none
  | some data => some <$> Grid.read data

/-- Give one field a new value.  Fields are not compared with one another. -/
def change (s : WellState α) : Change α → Outcome α (WellState α)
  | .name text => .ok { s with name := text }
  | .surfaceRates data => do return { s with surfaceRates := ← Grid.read data }
  | .reservoirRates data => do return { s with reservoirRates := ← Grid.read data }
  | .bhp x => .ok { s with bhp := x }
  | .thp x => .ok { s with thp := x }
  | .potentials data => do return { s with potentials := ← readOptional data }
  | .perforationRates data => do return { s with perforationRates := ← readPerforations data }
  | .injectionControl text => do return { s with injectionControl := ← Enumeration.read text }
  | .productionControl text => do return { s with productionControl := ← Enumeration.read text }
  | .status text => do return { s with status := ← Enumeration.read text }

variable [Scalar α]

/-- Check the arrays of a state against its surface rates, and put zeros where none are given. -/
def fit (s : WellState α) : Outcome α (WellState α) := do
  let expected := s.surfaceRates.shape
  let phases := s.surfaceRates.extent
  if expected.length ≠ 1 then throw .surfaceRatesShape
  if s.reservoirRates.shape ≠ expected then
    throw (.reservoirRatesShape s.name s.reservoirRates.shape expected)
  let potentials := s.potentials.getD (Grid.fill 0 expected)
  if potentials.shape ≠ expected then
    throw (.potentialsShape s.name potentials.shape expected)
  let perforations :=
    if s.perforationRates.entries = [] then Grid.fill 0 [0, phases] else s.perforationRates
  if perforations.shape.length ≠ 2 || perforations.shape.drop 1 ≠ [phases] then
    throw (.perforationRatesShape s.name phases perforations.shape)
  return { s with potentials := some potentials, perforationRates := perforations }

def ofDraft (d : Draft α) : Outcome α (WellState α) := do
  let surfaceRates ← Grid.read d.surfaceRates
  let reservoirRates ← Grid.read d.reservoirRates
  let potentials ← readOptional d.potentials
  let perforationRates ← readPerforations d.perforationRates
  let injectionControl ← Enumeration.read d.injectionControl
  let productionControl ← Enumeration.read d.productionControl
  let status ← Enumeration.read d.status
  fit {
    name := d.name
    surfaceRates, reservoirRates
    bhp := d.bhp
    thp := d.thp
    potentials, perforationRates, injectionControl, productionControl, status }

def surface (s : WellState α) : List α := s.surfaceRates.line

def reservoir (s : WellState α) : List α := s.reservoirRates.line

def potential (s : WellState α) : List α := (s.potentials.map Grid.line).getD []

def isStopped (s : WellState α) : Bool := decide (s.status = .stop)

def scale (s : WellState α) (factor : α) : WellState α :=
  { s with surfaceRates := s.surfaceRates.map (· * factor) }

/-- The same for a state whose surface rates may be a bare number, which is refused. -/
def rescale (s : WellState α) (factor : α) : Outcome α (WellState α) :=
  if s.surfaceRates.shape = [] then .error .missingRate else .ok (s.scale factor)

end WellState

abbrev WellStates (α : Type) := Catalog String (WellState α)

namespace WellStates
variable {α : Type}

/-- Of two states of one well the later counts. -/
def ofStates (states : List (WellState α)) : WellStates α :=
  Catalog.ofList (states.map fun s => (s.name, s))

def add (c : WellStates α) (s : WellState α) : Outcome α (WellStates α) :=
  match c.insertNew s.name s with
  | (true, c) => .ok c
  | (false, _) => .error (.duplicateState s.name)

def state (c : WellStates α) (name : String) : Outcome α (WellState α) :=
  match c.get? name with
  | some s => .ok s
  | none => .error (.unlisted name)

end WellStates
end WellControl
