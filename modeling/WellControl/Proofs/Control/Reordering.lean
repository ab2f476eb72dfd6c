import WellControl.Proofs.Control.Correspondence
import WellControl.Proofs.Phase.Reordering

/-! # Checks of the controls with phases in another order

Two states are related that hold the same rates for the same phases, in whatever order, and are
otherwise the same (`WellState.Reordered`).  A check of the controls that is given related states
and related arrays to take off targets answers the same and leaves related states. -/
set_option autoImplicit false

namespace WellControl
open PhaseTable

section States

structure Grid.SameRows (t t' : PhaseTable) (g g' : Grid ℚ) : Prop where
  shapes : ∃ rows, g.shape = [rows, t.size] ∧ g'.shape = [rows, t'.size]
  row : ∀ i part part', g.part? i = some part → g'.part? i = some part' →
    PhaseTable.SameRates t t' part.entries part'.entries

structure WellState.Reordered (t t' : PhaseTable) (s s' : WellState ℚ) : Prop where
  name : s'.name = s.name
  surface : s.surfaceRates.SameRates t t' s'.surfaceRates
  reservoir : s.reservoirRates.SameRates t t' s'.reservoirRates
  bhp : s'.bhp = s.bhp
  thp : s'.thp = s.thp
  potentials : Option.Rel (Grid.SameRates t t') s.potentials s'.potentials
  perforations : s.perforationRates.SameRows t t' s'.perforationRates
  injectionControl : s'.injectionControl = s.injectionControl
  productionControl : s'.productionControl = s.productionControl
  status : s'.status = s.status

def WellStates.Reordered (t t' : PhaseTable) (states states' : WellStates ℚ) : Prop :=
  ∀ name, Option.Rel (WellState.Reordered t t') (states.get? name) (states'.get? name)

/-- The same evaluator for phases in another order: a conversion with the same properties of
regions, targets shared by guide rate, a single process, and the same physical check. -/
structure Evaluator.Reordered (t t' : PhaseTable) (e e' : Evaluator ℚ) : Prop where
  label : e'.label = e.label
  well : e'.well = e.well
  table : e.table = t
  table' : e'.table = t'
  converter : ∃ c c' : FormationVolume ℚ, c.table = t ∧ c'.table = t' ∧
    FormationVolume.SameRegions c c' ∧ e.converter = c.converter ∧ e'.converter = c'.converter
  helper : e.helper = ShareQuery.byGuideRate
  helper' : e'.helper = ShareQuery.byGuideRate
  owned : e'.ownership.owned = e.ownership.owned
  serial : ∀ n rates, e.ownership.reduce n rates = .ok rates
  serial' : ∀ n rates, e'.ownership.reduce n rates = .ok rates
  /-- A physical check answers the same for related states. -/
  physical : Option.Rel
    (fun check check' : PhysicalCheck ℚ => ∀ w s s', WellState.Reordered t t' s s' →
      check' w s' = check w s) e.physical e'.physical
  writeMessages : e'.writeMessages = e.writeMessages
  step : e'.step = e.step
  guideRates : e'.guideRates = e.guideRates

end States

variable {t t' : PhaseTable}

theorem WellState.keptByChecks_reordered (t t' : PhaseTable) :
    KeptByChecks t t' (WellState.Reordered t t') where
  readings same := ⟨same.surface, same.reservoir, same.bhp, same.thp, same.injectionControl,
    same.productionControl⟩
  injection same _ := { same with injectionControl := rfl }
  production same _ := { same with productionControl := rfl }
  surface same rates := { same with surface := rates }

namespace WellStates.Reordered
variable {states states' : WellStates ℚ}

theorem related (listed : states.Reordered t t' states') :
    WellStates.Related (WellState.Reordered t t') states states' := listed

theorem state (listed : states.Reordered t t' states') (name : String) :
    Outcome.Alike (WellState.Reordered t t') (states.state name) (states'.state name) :=
  listed.related.state name

theorem adjust (listed : states.Reordered t t' states') {s s' : WellState ℚ}
    (same : s.Reordered t t' s') (name : String) :
    WellStates.Reordered t t' (states.adjust name fun _ => s) (states'.adjust name fun _ => s') :=
  listed.related.adjust same name

end WellStates.Reordered

namespace Evaluator
variable {e e' : Evaluator ℚ} {setting setting' : Setting ℚ} {states states' : WellStates ℚ}
  {s s' : WellState ℚ}

theorem Reordered.corresponds (same : e.Reordered t t' e') (perm : t.active.Perm t'.active) :
    e.Corresponds t t' e' := by
  obtain ⟨c, c', rfl, rfl, regions, converter, converter'⟩ := same.converter
  exact
    { well := same.well
      table := same.table
      table' := same.table'
      converter := ⟨c, c', rfl, rfl, regions, FormationVolume.sameExchange_of_perm perm, converter,
        converter'⟩
      helper := same.helper
      helper' := same.helper'
      step := same.step
      guideRates := same.guideRates
      observed := fun _ _ _ _ _ => perm.mem_iff }

theorem Reordered.name_eq (same : e.Reordered t t' e') : e'.name = e.name := by
  rw [name, name, same.well]

theorem withReservoirRates_alike (perm : t.active.Perm t'.active) (same : e.Reordered t t' e')
    (constants : Constants ℚ) (related : s.Reordered t t' s') :
    Outcome.Alike (WellState.Reordered t t') (e.withReservoirRates constants s)
      (e'.withReservoirRates constants s') := by
  obtain ⟨c, c', rfl, rfl, regions, exchange, converter, converter'⟩ :=
    (same.corresponds perm).converter
  unfold withReservoirRates
  rw [same.well, converter, converter']
  refine (FormationVolume.voidage_alike regions exchange _ _ related.surface).bind
    fun xs ys rates => ?_
  have shape : s.reservoirRates.shape = [xs.length] := by
    rw [related.reservoir.shape, rates.fits]
  have shape' : s'.reservoirRates.shape = [ys.length] := by
    rw [related.reservoir.shape', rates.fits']
  rw [Grid.ofRow_eq shape, Grid.ofRow_eq shape']
  exact .ok { related with reservoir := .ofList rates }

theorem controlSwitch_alike (perm : t.active.Perm t'.active) (same : e.Reordered t t' e')
    (settings : setting.Reordered t t' setting') (listed : states.Reordered t t' states')
    (constants : Constants ℚ) (related : s.Reordered t t' s') :
    Outcome.Alike (Option.Rel (WellState.Reordered t t'))
      (e.controlSwitch setting constants states s)
      (e'.controlSwitch setting' constants states' s') :=
  (same.corresponds perm).controlSwitch_alike (WellState.keptByChecks_reordered t t')
    (fun _ _ _ _ => perm.mem_iff) settings listed constants related

end Evaluator

/-- A check gives the same answer, and leaves related states of all wells. -/
theorem ControlCheck.run_reordered {c c' : ControlCheck ℚ} {states states' : WellStates ℚ}
    (perm : t.active.Perm t'.active) (same : c.evaluator.Reordered t t' c'.evaluator)
    (settings : c.setting.Reordered t t' c'.setting) (constants : c'.constants = c.constants)
    (listed : states.Reordered t t' states') :
    (c'.run states').1 = (c.run states).1 ∧
      (c.run states).2.Reordered t t' (c'.run states').2 :=
  run_alike (same.corresponds perm) (WellState.keptByChecks_reordered t t')
    (fun _ _ _ _ => perm.mem_iff) settings constants listed

end WellControl
