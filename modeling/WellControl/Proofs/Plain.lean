import Mathlib.Data.Rat.Defs
import WellControl.Proofs.Pass.Call

/-! # Plain wells

Wells, states and evaluators in exact arithmetic on which nothing is switched on.  A particular
case is made from them by changing the fields that matter to it. -/
set_option autoImplicit false

namespace WellControl

def EconomicLimits.off : EconomicLimits ℚ :=
  ⟨none, none, none, none, none, none, none, none, .none, .rate, false, none⟩

def EconomicLimits.halfWater : EconomicLimits ℚ :=
  { off with maxWaterCut := some ⟨1 / 2, by decide +kernel⟩ }

def ProductionControls.free : ProductionControls ℚ :=
  let zero : Limit ℚ := ⟨0, by decide⟩
  ⟨[], zero, zero, zero, zero, zero, zero, zero, true⟩

def InjectionControls.free (fluid : InjectedFluid) : InjectionControls ℚ :=
  let zero : Limit ℚ := ⟨0, by decide⟩
  ⟨fluid, [], zero, zero, zero, zero, true⟩

def WellHeader.plain (name group : String) : WellHeader ℚ :=
  ⟨name, group, [], ⟨1, by decide⟩, true, 0, List.nodup_nil⟩

def Producer.plain (name group : String) : Producer ℚ :=
  { WellHeader.plain name group with controls := .free, limits := .off }

def twoConnections : List Connection := [⟨0, some ⟨1, by decide⟩, .open⟩, ⟨1, none, .open⟩]

theorem twoConnections_distinct : (twoConnections.map Connection.index).Nodup := by decide

def oneConnection : List Connection := [⟨0, none, .open⟩]

theorem oneConnection_distinct : (oneConnection.map Connection.index).Nodup := by decide

def threeRates (rates : ℚ × ℚ × ℚ) : List ℚ := [rates.1, rates.2.1, rates.2.2]

theorem length_threeRates (rows : List (ℚ × ℚ × ℚ)) :
    (rows.flatMap threeRates).length = Grid.volume [rows.length, 3] := by
  induction rows with
  | nil => rfl
  | cons row rest ih =>
    rw [List.flatMap_cons, List.length_append, ih]
    simp only [threeRates, Grid.volume, List.length_cons, List.length_nil]
    omega

/-- A well that flows at the given rates of water, oil and gas, with such rates for each
connection. -/
def WellState.flowing (name : String) (rates : ℚ × ℚ × ℚ) (rows : List (ℚ × ℚ × ℚ)) :
    WellState ℚ where
  name
  surfaceRates := .ofList (threeRates rates)
  reservoirRates := .ofList (threeRates rates)
  bhp := 0
  thp := 0
  potentials := none
  perforationRates := ⟨[rows.length, 3], rows.flatMap threeRates, length_threeRates rows⟩
  injectionControl := .none
  productionControl := .none
  status := .open

/-- Volumes at the surface and in the reservoir are the same. -/
def RateConverter.unit (t : PhaseTable) : RateConverter ℚ where
  voidage _ _ rates := .ok rates.line
  coefficients _ _ := .ok (t.active.map fun _ => 1)

def Evaluator.plain (well : Well ℚ) : Evaluator ℚ where
  label := well.name
  well
  table := .blackOil
  converter := .unit .blackOil
  ownership := .serial
  helper := ShareQuery.byGuideRate
  physical := none
  writeMessages := true
  step := 0
  guideRates := none

/-- One group with its producers, from which nothing is taken off. -/
def Setting.ofGroup (group : WellGroup ℚ) (producers : List (Producer ℚ)) : Setting ℚ where
  schedule :=
    { groups := Catalog.empty.put group.name group
      wells := ⟨[], producers⟩
      overrides := .empty }
  reductions := ⟨.empty, .empty⟩

def Pass.ofGroup (group : WellGroup ℚ) (producers : List (Producer ℚ)) (time : ℚ) : Pass ℚ where
  config := .standard
  setting := .ofGroup group producers
  time
  evaluators := producers.map fun w => .plain (.producer w)
  ownJournal := false

theorem Pass.noHook_ofGroup (group : WellGroup ℚ) (producers : List (Producer ℚ)) (time : ℚ) :
    (Pass.ofGroup group producers time).NoHook := by
  intro e member
  obtain ⟨w, _, rfl⟩ := List.mem_map.1 member
  rfl

def World.ofStates (states : List (WellState ℚ)) : World ℚ :=
  ⟨.ofStates states, .empty, [], .empty, .standard⟩

end WellControl
