import WellControl.Proofs.Control.Frame
import WellControl.Proofs.Phase.Correspondence

/-! # Checks of the controls over two phase tables

A check of the controls reads the rates of a state by phase, its pressures and its control modes.
It answers the same for two states over different phase tables of which it reads the same
(`WellState.SameReadings`), and changes both alike.  So it keeps every relation between states that
such changes keep (`KeptByChecks`), whatever else the relation says of them. -/
set_option autoImplicit false

namespace WellControl
open PhaseTable

section Relations

structure WellState.SameReadings (t t' : PhaseTable) (s s' : WellState ℚ) : Prop where
  surface : s.surfaceRates.SameRates t t' s'.surfaceRates
  reservoir : s.reservoirRates.SameRates t t' s'.reservoirRates
  bhp : s'.bhp = s.bhp
  thp : s'.thp = s.thp
  injectionControl : s'.injectionControl = s.injectionControl
  productionControl : s'.productionControl = s.productionControl

/-- A relation between states of which checks read the same, and that what checks change in both
alike does not break. -/
structure KeptByChecks (t t' : PhaseTable) (R : WellState ℚ → WellState ℚ → Prop) : Prop where
  readings : ∀ {s s'}, R s s' → s.SameReadings t t' s'
  injection : ∀ {s s'}, R s s' → ∀ m,
    R { s with injectionControl := m } { s' with injectionControl := m }
  production : ∀ {s s'}, R s s' → ∀ m,
    R { s with productionControl := m } { s' with productionControl := m }
  surface : ∀ {s s' g g'}, R s s' → Grid.SameRates t t' g g' →
    R { s with surfaceRates := g } { s' with surfaceRates := g' }

def WellStates.Related (R : WellState ℚ → WellState ℚ → Prop) (states states' : WellStates ℚ) :
    Prop :=
  ∀ name, Option.Rel R (states.get? name) (states'.get? name)

structure Reductions.Reordered (t t' : PhaseTable) (r r' : Reductions ℚ) : Prop where
  production : ∀ group, Option.Rel (PhaseTable.SameRates t t') (r.production.get? group)
    (r'.production.get? group)
  injection : ∀ group, Option.Rel (PhaseTable.SameRates t t') (r.injection.get? group)
    (r'.injection.get? group)

structure Setting.Reordered (t t' : PhaseTable) (setting setting' : Setting ℚ) : Prop where
  schedule : setting'.schedule = setting.schedule
  reductions : setting.reductions.Reordered t t' setting'.reductions

/-- Two evaluators of one well that share targets by guide rate and convert rates by the same
properties of regions, where as much goes over between oil and gas. -/
structure Evaluator.Corresponds (t t' : PhaseTable) (e e' : Evaluator ℚ) : Prop where
  well : e'.well = e.well
  table : e.table = t
  table' : e'.table = t'
  converter : ∃ c c' : FormationVolume ℚ, c.table = t ∧ c'.table = t' ∧ c.SameRegions c' ∧
    c.SameExchange c' ∧ e.converter = c.converter ∧ e'.converter = c'.converter
  helper : e.helper = ShareQuery.byGuideRate
  helper' : e'.helper = ShareQuery.byGuideRate
  step : e'.step = e.step
  guideRates : e'.guideRates = e.guideRates
  /-- Of a phase that only one table lists, no producer that follows its history has a rate. -/
  observed : ∀ w, e.well = .producer w → w.controls.prediction = false →
    ∀ p, w.observed p ≠ 0 → (p ∈ t.active ↔ p ∈ t'.active)

end Relations

variable {t t' : PhaseTable} {R : WellState ℚ → WellState ℚ → Prop}

theorem keptByChecks_sameReadings (t t' : PhaseTable) :
    KeptByChecks t t' (WellState.SameReadings t t') where
  readings related := related
  injection related _ := { related with injectionControl := rfl }
  production related _ := { related with productionControl := rfl }
  surface related same := { related with surface := same }

namespace WellStates.Related
variable {states states' : WellStates ℚ}

theorem imp (listed : Related R states states') {S : WellState ℚ → WellState ℚ → Prop}
    (weaker : ∀ s s', R s s' → S s s') : Related S states states' := by
  intro name
  have found := listed name
  generalize states.get? name = state, states'.get? name = state' at found ⊢
  cases found with
  | none => exact .none
  | some related => exact .some (weaker _ _ related)

theorem state (listed : Related R states states') (name : String) :
    Outcome.Alike R (states.state name) (states'.state name) := by
  have found := listed name
  unfold WellStates.state
  generalize states.get? name = state, states'.get? name = state' at found
  cases found with
  | none => exact .error _
  | some related => exact .ok related

theorem adjust (listed : Related R states states') {s s' : WellState ℚ} (related : R s s')
    (name : String) :
    Related R (states.adjust name fun _ => s) (states'.adjust name fun _ => s') := by
  intro other
  have found := listed other
  simp only [Catalog.adjust, Catalog.get?_mapValues]
  generalize states.get? other = state, states'.get? other = state' at found
  cases found with
  | none => exact .none
  | some kept =>
    dsimp only [Option.map_some]
    split
    · exact .some related
    · exact .some kept

end WellStates.Related

/-! ## Shares -/

namespace ShareQuery
variable {q q' : ShareQuery ℚ} {quantity quantity' : RateQuantity ℚ}

structure Corresponds (t t' : PhaseTable) (q q' : ShareQuery ℚ) : Prop where
  well : q'.well = q.well
  group : q'.group = q.group
  demand : q'.demand = q.demand
  states : WellStates.Related
    (fun s s' => s.surfaceRates.SameRates t t' s'.surfaceRates) q.states q'.states
  reductions : q.reductions.Reordered t t' q'.reductions
  guideRates : q'.guideRates = q.guideRates
  rates : q.rates.SameRates t t' q'.rates
  table : q.table = t
  table' : q'.table = t'
  efficiency : q'.efficiency = q.efficiency
  schedule : q'.schedule = q.schedule
  coefficients : SameCoefficients t t' q.coefficients q'.coefficients
  constants : q'.constants = q.constants

namespace Corresponds

theorem siblings (same : q.Corresponds t t' q') : q'.siblings = q.siblings := by
  unfold ShareQuery.siblings
  rw [same.schedule, same.group, same.demand]

theorem guideRate (same : q.Corresponds t t' q')
    (measures : RateQuantity.Same t t' quantity quantity') (name : String) :
    q'.guideRate quantity' name = q.guideRate quantity name := by
  unfold ShareQuery.guideRate
  rw [same.guideRates]
  cases q.guideRates.bind (·.get? name) with
  | some rate => rfl
  | none =>
    have listed := same.states name
    generalize q.states.get? name = state, q'.states.get? name = state' at listed
    cases listed with
    | none => rfl
    | some related =>
      dsimp only
      rw [measures _ _ related]

theorem fraction (same : q.Corresponds t t' q')
    (measures : RateQuantity.Same t t' quantity quantity') :
    q'.fraction quantity' = q.fraction quantity := by
  unfold ShareQuery.fraction
  simp only [same.siblings, same.guideRate measures, same.constants, same.well]

theorem settle (same : q.Corresponds t t' q')
    (measures : RateQuantity.Same t t' quantity quantity') (target : ℚ) {off off' : List ℚ}
    (taken : PhaseTable.SameRates t t' off off') :
    q'.settle target quantity' off' = q.settle target quantity off := by
  have compared : q'.compare = q.compare := by
    funext current allowed
    rw [ShareQuery.compare, ShareQuery.compare, same.constants]
  have allowed : q'.allowance = q.allowance := by
    funext target reduction fraction
    rw [allowance, allowance, same.efficiency]
  unfold ShareQuery.settle
  rw [measures _ _ (.ofList taken), same.fraction measures, measures _ _ same.rates, compared,
    allowed]

theorem off {c c' : Catalog String (List ℚ)} {group : String}
    (given : Option.Rel (PhaseTable.SameRates t t') (c.get? group) (c'.get? group)) :
    PhaseTable.SameRates t t' (Reductions.off c group t) (Reductions.off c' group t') := by
  unfold Reductions.off
  generalize c.get? group = off, c'.get? group = off' at given
  cases given with
  | none => exact sameRates_zeros t t'
  | some related => exact related

/-- A share is the same over both tables, but that an injected phase has to be listed by both or by
neither. -/
theorem byGuideRate (same : q.Corresponds t t' q')
    (injected : ∀ p, q.demand = .injection p → (p ∈ t.active ↔ p ∈ t'.active)) :
    ShareQuery.byGuideRate q' = ShareQuery.byGuideRate q := by
  unfold ShareQuery.byGuideRate
  rw [same.demand, same.group, same.table, same.table']
  cases demand : q.demand with
  | production =>
    dsimp only
    split
    · rfl
    · split
      · rfl
      · rename_i controls _ _ target _
        have taken := (off (same.reductions.production q.group.name)).map neg_zero
        have measured := productionQuantity_alike same.coefficients controls.mode
        generalize productionQuantity controls.mode t q.coefficients = x,
          productionQuantity controls.mode t' q'.coefficients = y at measured
        cases measured with
        | error f => rfl
        | ok measures => exact same.settle measures target.val taken
  | injection p =>
    dsimp only
    split
    · rfl
    · split
      · rfl
      · rename_i controls _ _ target _
        have taken := off (same.reductions.injection q.group.name)
        have measured := injectionQuantity_alike same.coefficients controls.mode (injected p demand)
        generalize injectionQuantity controls.mode p t q.coefficients = x,
          injectionQuantity controls.mode p t' q'.coefficients = y at measured
        cases measured with
        | error f => rfl
        | ok measures => exact same.settle measures target.val taken

end Corresponds
end ShareQuery

/-! ## Limits of a well -/

section Limits
variable {s s' : WellState ℚ}

theorem Injector.exceeds_eq (same : s.SameReadings t t' s') (w : Injector ℚ) :
    w.exceeds t' s' = w.exceeds t s := by
  funext m
  cases m with
  | none | grup => rfl
  | bhp => rw [exceeds, exceeds, same.bhp]
  | thp => rw [exceeds, exceeds, same.thp]
  | rate => simp only [exceeds, WellState.surface, same.surface.line.rateOrZero]
  | resv => simp only [exceeds, WellState.reservoir, same.reservoir.line.total]

variable {c c' : FormationVolume ℚ}

/-- What a producer was observed to produce comes to the same reservoir volume. -/
theorem Producer.reservoirLimit_eq (regions : c.SameRegions c') (exchange : c.SameExchange c')
    (w : Producer ℚ) (observed : w.controls.prediction = false →
      ∀ p, w.observed p ≠ 0 → (p ∈ c.table.active ↔ p ∈ c'.table.active))
    (constants : Constants ℚ) :
    w.reservoirLimit c'.table c'.converter constants =
      w.reservoirLimit c.table c.converter constants := by
  unfold reservoirLimit
  split
  · rfl
  · rename_i historic
    have rates := sameRates_map_active (observed (Bool.eq_false_iff.2 historic))
    have converted := FormationVolume.voidage_alike regions exchange constants.fipRegion w.pvtRegion
      (Grid.SameRates.ofList rates)
    simp only [FormationVolume.converter]
    generalize c.voidage constants.fipRegion w.pvtRegion _ = x,
      c'.voidage constants.fipRegion w.pvtRegion _ = y at converted
    cases converted with
    | error f => rfl
    | ok rates => simp only [Outcome.ok_bind, rates.sum]

theorem Producer.exceeds_eq (regions : c.SameRegions c') (exchange : c.SameExchange c')
    (same : s.SameReadings c.table c'.table s') (w : Producer ℚ)
    (observed : w.controls.prediction = false →
      ∀ p, w.observed p ≠ 0 → (p ∈ c.table.active ↔ p ∈ c'.table.active))
    (constants : Constants ℚ) :
    w.exceeds c'.table c'.converter constants s' = w.exceeds c.table c.converter constants s := by
  funext m
  cases m with
  | none | grup => rfl
  | bhp => rw [exceeds, exceeds, same.bhp]
  | thp => rw [exceeds, exceeds, same.thp]
  | orat | wrat | grat | lrat =>
    simp only [exceeds, WellState.surface, same.surface.line.rateOrZero]
  | resv =>
    simp only [exceeds, WellState.reservoir, same.reservoir.line.total,
      w.reservoirLimit_eq regions exchange observed]

end Limits

/-! ## Checks -/

theorem WellState.rescale_alike (kept : KeptByChecks t t' R) {s s' : WellState ℚ}
    (related : R s s') (factor : ℚ) :
    Outcome.Alike R (s.rescale factor) (s'.rescale factor) := by
  have same := (kept.readings related).surface
  rw [rescale, rescale, same.shape, same.shape', if_neg (List.cons_ne_nil _ _),
    if_neg (List.cons_ne_nil _ _)]
  exact .ok (kept.surface related (same.map (zero_mul factor)))

namespace Evaluator.Corresponds
variable {e e' : Evaluator ℚ} {setting setting' : Setting ℚ} {states states' : WellStates ℚ}
  {s s' : WellState ℚ}

theorem name_eq (same : e.Corresponds t t' e') : e'.name = e.name := by
  rw [name, name, same.well]

theorem individualSwitch_alike (same : e.Corresponds t t' e') (kept : KeptByChecks t t' R)
    (constants : Constants ℚ) (related : R s s') :
    Outcome.Alike (Option.Rel R) (e.individualSwitch constants s)
      (e'.individualSwitch constants s') := by
  obtain ⟨c, c', rfl, rfl, regions, exchange, converter, converter'⟩ := same.converter
  have readings := kept.readings related
  unfold individualSwitch
  rw [same.well, converter, converter', same.table, same.table']
  split
  · rename_i w _
    rw [Injector.exceeds_eq readings, readings.injectionControl]
    refine .bind_same rfl fun mode => ?_
    cases mode with
    | none => exact .ok .none
    | some m => exact .ok (.some (kept.injection related m))
  · rename_i w well
    rw [Producer.exceeds_eq regions exchange readings w (same.observed w well),
      readings.productionControl]
    refine .bind_same rfl fun mode => ?_
    cases mode with
    | none => exact .ok .none
    | some m => exact .ok (.some (kept.production related m))

theorem groupAndCoefficients_alike (same : e.Corresponds t t' e')
    (settings : setting.Reordered t t' setting') (constants : Constants ℚ) :
    Outcome.Alike (fun found found' => found'.1 = found.1 ∧
        SameCoefficients t t' found.2 found'.2)
      (e.groupAndCoefficients setting constants) (e'.groupAndCoefficients setting' constants) := by
  obtain ⟨c, c', rfl, rfl, regions, exchange, converter, converter'⟩ := same.converter
  unfold groupAndCoefficients
  rw [same.well, same.step, settings.schedule, converter, converter']
  refine .bind_same rfl fun group => ?_
  have alike := FormationVolume.coefficients_alike regions exchange
  exact (alike _ _).bind fun cs cs' coefficients => .ok ⟨rfl, coefficients⟩

/-- The helper answers both questions alike. -/
theorem answer (same : e.Corresponds t t' e') (kept : KeptByChecks t t' R)
    (settings : setting.Reordered t t' setting') (listed : WellStates.Related R states states')
    (constants : Constants ℚ) (related : R s s') (group : WellGroup ℚ) {demand : Demand}
    (injected : ∀ p, demand = .injection p → (p ∈ t.active ↔ p ∈ t'.active)) {cs cs' : List ℚ}
    (coefficients : SameCoefficients t t' cs cs') :
    e'.helper (e'.shareQuery setting' constants states' s'.surfaceRates group demand cs') =
      e.helper (e.shareQuery setting constants states s.surfaceRates group demand cs) := by
  rw [same.helper, same.helper']
  refine ShareQuery.Corresponds.byGuideRate ?_ injected
  exact
    { well := same.name_eq
      group := rfl
      demand := rfl
      states := listed.imp fun _ _ related => (kept.readings related).surface
      reductions := settings.reductions
      guideRates := same.guideRates
      rates := (kept.readings related).surface
      table := same.table
      table' := same.table'
      efficiency := by simp only [shareQuery, same.well]
      schedule := settings.schedule
      coefficients
      constants := rfl }

/-- Once the helper has answered, both states are cut, or neither is. -/
theorem alike_of_answered (kept : KeptByChecks t t' R) (related : R s s')
    {place : WellState ℚ → WellState ℚ} (placed : ∀ u u', R u u' → R (place u) (place u'))
    (share : Share ℚ) :
    Outcome.Alike (Option.Rel R)
      (if share.exceeded then
        s.rescale share.factor >>= fun scaled => pure (some (place scaled))
      else pure none)
      (if share.exceeded then
        s'.rescale share.factor >>= fun scaled => pure (some (place scaled))
      else pure none) := by
  split
  · refine (WellState.rescale_alike kept related share.factor).bind fun u u' scaled => ?_
    exact .ok (.some (placed u u' scaled))
  · exact .ok .none

theorem groupSwitch_alike (same : e.Corresponds t t' e') (kept : KeptByChecks t t' R)
    (injected : ∀ w p, e.well = .injector w → w.phase = .ok p → (p ∈ t.active ↔ p ∈ t'.active))
    (settings : setting.Reordered t t' setting') (listed : WellStates.Related R states states')
    (constants : Constants ℚ) (related : R s s') :
    Outcome.Alike (Option.Rel R) (e.groupSwitch setting constants states s)
      (e'.groupSwitch setting' constants states' s') := by
  have defined := same.groupAndCoefficients_alike settings constants
  have readings := kept.readings related
  unfold groupSwitch
  rw [same.well]
  split
  · rename_i w well
    rw [readings.injectionControl]
    split
    · exact .ok .none
    · cases phase : w.phase with
      | error f => exact .error f
      | ok p =>
        simp only [Outcome.ok_bind]
        have listedPhase : ∀ q, Demand.injection p = .injection q →
            (q ∈ t.active ↔ q ∈ t'.active) := by
          rintro _ ⟨⟩
          exact injected w p well phase
        refine defined.bind ?_
        rintro ⟨group, cs⟩ ⟨_, cs'⟩ ⟨rfl, coefficients⟩
        dsimp only
        rw [same.answer kept settings listed constants related _ listedPhase coefficients]
        refine .bind_same rfl fun share => ?_
        exact alike_of_answered kept related (fun _ _ scaled => kept.injection scaled .grup) share
  · rw [readings.productionControl]
    split
    · exact .ok .none
    · have noPhase : ∀ p, Demand.production = .injection p → (p ∈ t.active ↔ p ∈ t'.active) := nofun
      refine defined.bind ?_
      rintro ⟨group, cs⟩ ⟨_, cs'⟩ ⟨rfl, coefficients⟩
      dsimp only
      rw [same.answer kept settings listed constants related _ noPhase coefficients]
      refine .bind_same rfl fun share => ?_
      exact alike_of_answered kept related (fun _ _ scaled => kept.production scaled .grup) share

theorem controlSwitch_alike (same : e.Corresponds t t' e') (kept : KeptByChecks t t' R)
    (injected : ∀ w p, e.well = .injector w → w.phase = .ok p → (p ∈ t.active ↔ p ∈ t'.active))
    (settings : setting.Reordered t t' setting') (listed : WellStates.Related R states states')
    (constants : Constants ℚ) (related : R s s') :
    Outcome.Alike (Option.Rel R) (e.controlSwitch setting constants states s)
      (e'.controlSwitch setting' constants states' s') := by
  refine (same.individualSwitch_alike kept constants related).bind fun switched switched' left => ?_
  cases left with
  | none => exact same.groupSwitch_alike kept injected settings listed constants related
  | some both => exact .ok (.some both)

end Evaluator.Corresponds

/-- A check gives the same answer, and leaves related states of all wells. -/
theorem ControlCheck.run_alike {c c' : ControlCheck ℚ} {states states' : WellStates ℚ}
    (same : c.evaluator.Corresponds t t' c'.evaluator) (kept : KeptByChecks t t' R)
    (injected : ∀ w p, c.evaluator.well = .injector w → w.phase = .ok p →
      (p ∈ t.active ↔ p ∈ t'.active))
    (settings : c.setting.Reordered t t' c'.setting) (constants : c'.constants = c.constants)
    (listed : WellStates.Related R states states') :
    (c'.run states').1 = (c.run states).1 ∧
      WellStates.Related R (c.run states).2 (c'.run states').2 := by
  have checked := (listed.state c.evaluator.name).bind fun s s' related =>
    same.controlSwitch_alike kept injected settings listed c.constants related
  unfold run
  rw [same.name_eq, constants]
  generalize states.state c.evaluator.name >>= _ = x, states'.state c.evaluator.name >>= _ = y
    at checked
  cases checked with
  | error f => exact ⟨rfl, listed⟩
  | ok left =>
    cases left with
    | none => exact ⟨rfl, listed⟩
    | some both => exact ⟨rfl, listed.adjust both _⟩

end WellControl
