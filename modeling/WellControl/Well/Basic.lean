import WellControl.Well.Connection
import WellControl.Well.Controls
import WellControl.Well.EconomicLimits

/-!
# Wells
-/

set_option autoImplicit false

namespace WellControl

/-- What injectors and producers have in common. -/
structure WellHeader (α : Type) [Scalar α] where
  name : String
  /-- The group the well belongs to directly. -/
  groupName : String
  connections : List Connection
  /-- Share of the time the well is operating, where its rates count towards a group. -/
  efficiency : Fraction α
  /-- Whether the well is shut when it is closed, as opposed to stopped. -/
  automaticShutIn : Bool
  pvtRegion : Nat
  distinct : (connections.map Connection.index).Nodup

structure Injector (α : Type) [Scalar α] extends WellHeader α where
  controls : InjectionControls α

structure Producer (α : Type) [Scalar α] extends WellHeader α where
  controls : ProductionControls α
  limits : EconomicLimits α

inductive Well (α : Type) [Scalar α] where
  | injector (w : Injector α)
  | producer (w : Producer α)

structure WellHeader.Draft (α : Type) [Scalar α] where
  name : String
  groupName : String
  efficiency : α := 1
  automaticShutIn : Bool := true
  pvtRegion : Int := 0

/-- What an injector or a producer is written with. -/
inductive Well.RoleDraft (α : Type) [Scalar α] where
  | injector (controls : InjectionControls.Draft α)
  | producer (limits : EconomicLimits.Draft α) (controls : ProductionControls.Draft α)

structure Well.Draft (α : Type) [Scalar α] where
  header : WellHeader.Draft α
  connections : List Connection.Draft
  role : Well.RoleDraft α

inductive WellHeader.Change (α : Type) where
  | name (text : String)
  | groupName (text : String)
  | connections (cs : List Connection)
  | efficiency (x : α)
  | automaticShutIn (b : Bool)
  | pvtRegion (n : Int)

variable {α : Type} [Scalar α]

namespace WellHeader

def ofDraft (d : Draft α) (connections : List Connection) : Outcome α (WellHeader α) := do
  if distinct : (connections.map Connection.index).Nodup then
    let efficiency ← Fraction.check "efficiency_factor" d.efficiency
    let pvtRegion ← checkNatural "pvt_region" d.pvtRegion
    return ⟨d.name, d.groupName, connections, efficiency, d.automaticShutIn, pvtRegion, distinct⟩
  else .error (.duplicateConnections (connections.map Connection.index))

def change (h : WellHeader α) : Change α → Outcome α (WellHeader α)
  | .name text => .ok { h with name := text }
  | .groupName text => .ok { h with groupName := text }
  | .connections cs =>
    if distinct : (cs.map Connection.index).Nodup then .ok { h with connections := cs, distinct }
    else .error (.duplicateConnections (cs.map Connection.index))
  | .efficiency x => do
    return { h with efficiency := ← Fraction.check "efficiency_factor" x }
  | .automaticShutIn b => .ok { h with automaticShutIn := b }
  | .pvtRegion n => do return { h with pvtRegion := ← checkNatural "pvt_region" n }

def completions (h : WellHeader α) : List (Int × List Nat) := completionsOf h.connections

def openConnections (h : WellHeader α) : List Connection := h.connections.filter Connection.isOpen

def closedVerb (h : WellHeader α) : String := if h.automaticShutIn then "shut" else "stopped"

end WellHeader

/-- The phase an injector injects. -/
def Injector.phase (w : Injector α) : Outcome α Phase :=
  match w.controls.fluid.phase? with
  | some p => .ok p
  | none => .error (.injectedPhase w.name w.controls.fluid)

namespace Well

def header : Well α → WellHeader α
  | injector w => w.toWellHeader
  | producer w => w.toWellHeader

def name (w : Well α) : String := w.header.name

def groupName (w : Well α) : String := w.header.groupName

def prediction : Well α → Bool
  | injector w => w.controls.prediction
  | producer w => w.controls.prediction

def withHeader (h : WellHeader α) : Well α → Well α
  | injector w => injector { h with controls := w.controls }
  | producer w => producer { h with controls := w.controls, limits := w.limits }

/-- Give one header field a new value. -/
def change (w : Well α) (ch : WellHeader.Change α) : Outcome α (Well α) := do
  let h ← w.header.change ch
  return w.withHeader h

def ofDraft (d : Draft α) : Outcome α (Well α) := do
  let connections ← d.connections.mapM Connection.ofDraft
  match d.role with
  | .injector controls => do
    let controls ← InjectionControls.ofDraft controls
    let header ← WellHeader.ofDraft d.header connections
    return injector { header with controls }
  | .producer limits controls => do
    let limits ← EconomicLimits.ofDraft limits
    let controls ← ProductionControls.ofDraft controls
    let header ← WellHeader.ofDraft d.header connections
    return producer { header with controls, limits }

def injector? : Well α → Option (Injector α)
  | injector w => some w
  | producer _ => none

def producer? : Well α → Option (Producer α)
  | injector _ => none
  | producer w => some w

end Well
end WellControl
