import WellControl.Proofs.State.Fitting

/-! # Faults of checks of the controls

A check of the controls on arrays that fit the phase table is refused for what a run is given, not
for how it is computed: the injected phase of a mixture, a group or a region that is not defined, or
an inactive phase for which a group sets a target (`Evaluator.ControlRefusal`).  No entry is
missing, and no quantity is asked of a mode without a target. -/
set_option autoImplicit false

namespace WellControl
variable {α : Type}

/-- A mode whose check fails was visited. -/
theorem firstExceeded_eq_error {μ φ : Type} [DecidableEq μ] {enabled : μ → Bool} {current : μ}
    {exceeded : μ → Except φ Bool} {order : List μ} {fault : φ}
    (failed : firstExceeded enabled current exceeded order = .error fault) :
    ∃ m ∈ order, exceeded m = .error fault := by
  induction order with
  | nil => cases failed
  | cons head rest ih =>
    rw [firstExceeded] at failed
    split at failed
    · cases answer : exceeded head with
      | error other =>
        rw [answer] at failed
        cases failed
        exact ⟨head, List.mem_cons_self, answer⟩
      | ok above =>
        rw [answer] at failed
        cases above with
        | true => cases failed
        | false =>
          obtain ⟨m, later, refused⟩ := ih failed
          exact ⟨m, List.mem_cons_of_mem head later, refused⟩
    · obtain ⟨m, later, refused⟩ := ih failed
      exact ⟨m, List.mem_cons_of_mem head later, refused⟩

structure Reductions.Fit (t : PhaseTable) (r : Reductions α) : Prop where
  production : ∀ group off, r.production.get? group = some off → off.length = t.size
  injection : ∀ group off, r.injection.get? group = some off → off.length = t.size

variable [Scalar α]

/-- An evaluator converts by formation volumes and shares by guide rate, with arrays of one phase
table and in a single process. -/
structure Evaluator.Fitted (t : PhaseTable) (e : Evaluator α) : Prop where
  table : e.table = t
  converter : ∃ c : FormationVolume α, c.table = t ∧ e.converter = c.converter
  helper : e.helper = ShareQuery.byGuideRate
  serial : ∀ n rates, e.ownership.reduce n rates = .ok rates

inductive Evaluator.ControlRefusal (e : Evaluator α) (setting : Setting α)
    (constants : Constants α) : Fault α → Prop
  | mixture {w : Injector α} (well : e.well = .injector w) (fluid : w.controls.fluid = .multi) :
      ControlRefusal e setting constants (.injectedPhase w.name .multi)
  | noGroup (undefined : setting.schedule.group? e.well.groupName e.step = none) :
      ControlRefusal e setting constants (.undefinedGroup e.well.groupName e.step)
  | noRegion {c : FormationVolume α} (converter : e.converter = c.converter)
      (undefined : (c.regions.get? (constants.fipRegion, e.well.header.pvtRegion)).or
        c.fallback = none) :
      ControlRefusal e setting constants
        (.undefinedRegion constants.fipRegion e.well.header.pvtRegion)
  /-- The group sets a target for a phase that the model does not carry. -/
  | inactive {w : Injector α} {p : Phase} {group : WellGroup α} {controls : InjectionTarget α}
      (well : e.well = .injector w) (fluid : w.controls.fluid.phase? = some p)
      (found : setting.schedule.group? e.well.groupName e.step = some group)
      (targeted : group.injection.get? p = some controls) (applies : controls.target? ≠ none)
      (inactive : p ∉ e.table.active) :
      ControlRefusal e setting constants (.inactivePhase p)

section Lookups
variable {fault : Fault α}

theorem Injector.phase_eq_error {w : Injector α} (failed : w.phase = .error fault) :
    w.controls.fluid = .multi ∧ fault = .injectedPhase w.name .multi := by
  unfold phase at failed
  cases fluid : w.controls.fluid with
  | multi =>
    rw [fluid] at failed
    cases failed
    exact ⟨rfl, rfl⟩
  | water | oil | gas =>
    rw [fluid] at failed
    cases failed

theorem Injector.phase_eq_ok {w : Injector α} {p : Phase} :
    w.phase = .ok p ↔ w.controls.fluid.phase? = some p := by
  unfold phase
  cases w.controls.fluid.phase? <;> simp

theorem Schedule.group_eq_ok {s : Schedule α} {name : String} {step : Int} {group : WellGroup α}
    (found : s.group name step = .ok group) : s.group? name step = some group := by
  unfold Schedule.group at found
  cases defined : s.group? name step with
  | none =>
    rw [defined] at found
    cases found
  | some g =>
    rw [defined] at found
    cases found
    rfl

theorem Schedule.group_eq_error {s : Schedule α} {name : String} {step : Int}
    (failed : s.group name step = .error fault) :
    s.group? name step = none ∧ fault = .undefinedGroup name step := by
  unfold Schedule.group at failed
  cases defined : s.group? name step with
  | none =>
    rw [defined] at failed
    cases failed
    exact ⟨rfl, rfl⟩
  | some g =>
    rw [defined] at failed
    cases failed

namespace FormationVolume
variable {c : FormationVolume α} {fip pvt : Int}

theorem region_eq_error (failed : c.region fip pvt = .error fault) :
    (c.regions.get? (fip, pvt)).or c.fallback = none ∧ fault = .undefinedRegion fip pvt := by
  unfold region at failed
  cases defined : (c.regions.get? (fip, pvt)).or c.fallback with
  | none =>
    rw [defined] at failed
    cases failed
    exact ⟨rfl, rfl⟩
  | some r =>
    rw [defined] at failed
    cases failed

/-- Of rates that fit, only the region can be missing. -/
theorem voidage_eq {rates : Grid α} (fits : rates.shape = [c.table.size]) :
    c.voidage fip pvt rates =
      c.region fip pvt >>= fun r => .ok (c.table.active.map (c.phaseVoidage r rates.line)) := by
  simp only [voidage, fits, ne_eq, not_true_eq_false, if_false]
  rfl

end FormationVolume
end Lookups

section Limits
variable {e : Evaluator α} {t : PhaseTable} {setting : Setting α} {constants : Constants α}
  {s : WellState α} {fault : Fault α}

theorem Injector.exceeds_eq_error {w : Injector α} (fits : s.Fits t) {m : InjectorMode}
    (failed : w.exceeds t s m = .error fault) : w.phase = .error fault := by
  cases m with
  | rate =>
    rcases Outcome.bind_eq_error.1 failed with mixed | ⟨p, -, failed⟩
    · exact mixed
    · rw [PhaseTable.rateOrZero_eq fits.length_surface] at failed
      cases failed
  | resv =>
    rw [exceeds, PhaseTable.total_eq fits.length_reservoir] at failed
    cases failed
  | none | bhp | thp | grup => cases failed

theorem Producer.exceeds_eq_error {w : Producer α} {c : FormationVolume α} (fits : s.Fits c.table)
    {m : ProducerMode} (failed : w.exceeds c.table c.converter constants s m = .error fault) :
    c.region constants.fipRegion w.pvtRegion = .error fault := by
  have read := c.table.rateOrZero_eq fits.length_surface
  cases m with
  | orat | wrat | grat | lrat =>
    simp only [exceeds, read] at failed
    cases failed
  | resv =>
    rw [exceeds, PhaseTable.total_eq fits.length_reservoir, Outcome.ok_bind] at failed
    rcases Outcome.bind_eq_error.1 failed with refused | ⟨_, -, failed⟩
    · rw [reservoirLimit] at refused
      split at refused
      · cases refused
      have observed : (Grid.ofList (c.table.active.map w.observed)).shape = [c.table.size] := by
        rw [Grid.shape_ofList, List.length_map]
        rfl
      simp only [FormationVolume.converter, FormationVolume.voidage_eq observed] at refused
      rcases Outcome.bind_eq_error.1 refused with missing | ⟨_, -, refused⟩
      · rcases Outcome.bind_eq_error.1 missing with missing | ⟨_, -, missing⟩
        · exact missing
        · cases missing
      · cases refused
    · cases failed
  | none | bhp | thp | grup => cases failed

theorem Evaluator.individualSwitch_eq_error (fitted : e.Fitted t) (fits : s.Fits t)
    (failed : e.individualSwitch constants s = .error fault) :
    e.ControlRefusal setting constants fault := by
  obtain ⟨c, rfl, converter⟩ := fitted.converter
  unfold individualSwitch at failed
  split at failed
  · rename_i w well
    rcases Outcome.bind_eq_error.1 failed with failed | ⟨_, -, failed⟩
    · obtain ⟨m, -, refused⟩ := firstExceeded_eq_error failed
      rw [fitted.table] at refused
      obtain ⟨fluid, rfl⟩ := Injector.phase_eq_error (Injector.exceeds_eq_error fits refused)
      exact .mixture well fluid
    · cases failed
  · rename_i w well
    rcases Outcome.bind_eq_error.1 failed with failed | ⟨_, -, failed⟩
    · obtain ⟨m, -, refused⟩ := firstExceeded_eq_error failed
      rw [fitted.table, converter] at refused
      have header : w.pvtRegion = e.well.header.pvtRegion := by rw [well]; rfl
      have missing := Producer.exceeds_eq_error fits refused
      rw [header] at missing
      obtain ⟨undefined, rfl⟩ := FormationVolume.region_eq_error missing
      exact .noRegion converter undefined
    · cases failed

end Limits

section Quantities
variable {t : PhaseTable} {coefficients : List α}

def RateQuantity.Reads (t : PhaseTable) (quantity : RateQuantity α) : Prop :=
  ∀ rates : Grid α, rates.shape = [t.size] → ∃ x, quantity rates = .ok x

/-- A mode with a target has a quantity. -/
theorem productionQuantity_reads {controls : ProductionTarget α} {target : NonNegative α}
    (applies : controls.target? = some target) (long : coefficients.length = t.size) :
    ∃ quantity, productionQuantity controls.mode t coefficients = .ok quantity ∧
      quantity.Reads t := by
  unfold ProductionTarget.target? at applies
  cases mode : controls.mode with
  | none | fld =>
    rw [mode] at applies
    cases applies
  | orat | wrat | grat | lrat =>
    refine ⟨_, rfl, fun rates fits => ?_⟩
    simp only [PhaseTable.rateOrZero_eq (Grid.length_line fits)]
    exact ⟨_, rfl⟩
  | resv =>
    refine ⟨_, rfl, fun rates fits => ?_⟩
    simp only [weighted_eq long fits]
    exact ⟨_, rfl⟩

theorem injectionQuantity_reads {controls : InjectionTarget α} {target : NonNegative α}
    (applies : controls.target? = some target) (long : coefficients.length = t.size) {p : Phase}
    (active : p ∈ t.active) :
    ∃ quantity, injectionQuantity controls.mode p t coefficients = .ok quantity ∧
      quantity.Reads t := by
  obtain ⟨i, positioned⟩ := PhaseTable.position_of_active (α := α) active
  unfold InjectionTarget.target? at applies
  unfold injectionQuantity
  rw [positioned, Outcome.ok_bind]
  cases mode : controls.mode with
  | none | fld =>
    rw [mode] at applies
    cases applies
  | rate =>
    refine ⟨_, rfl, fun rates fits => ?_⟩
    exact ⟨_, PhaseTable.rate_eq (Grid.length_line fits) active⟩
  | resv =>
    refine ⟨_, rfl, fun rates fits => ?_⟩
    simp only [PhaseTable.rate_eq (Grid.length_line fits) active, PhaseTable.rate_eq long active]
    exact ⟨_, rfl⟩

end Quantities

namespace ShareQuery
variable {q : ShareQuery α} {quantity : RateQuantity α} {fault : Fault α}

structure Fits (q : ShareQuery α) : Prop where
  states : q.states.Fit q.table
  rates : q.rates.shape = [q.table.size]
  coefficients : q.coefficients.length = q.table.size
  reductions : q.reductions.Fit q.table

theorem exists_guideRate (fits : q.Fits) (reads : quantity.Reads q.table) (name : String) :
    ∃ x, q.guideRate quantity name = .ok x := by
  unfold guideRate
  cases q.guideRates.bind (·.get? name) with
  | some rate => exact ⟨_, rfl⟩
  | none =>
    cases listed : q.states.get? name with
    | none => exact ⟨_, rfl⟩
    | some s =>
      obtain ⟨x, read⟩ := reads s.surfaceRates (fits.states name s listed).surface
      simp only [read]
      exact ⟨_, rfl⟩

theorem exists_fraction (fits : q.Fits) (reads : quantity.Reads q.table) :
    ∃ x, q.fraction quantity = .ok x := by
  obtain ⟨weights, summed⟩ := Outcome.exists_mapM_eq_ok fun (w : Well α) (_ : w ∈ q.siblings) =>
    exists_guideRate fits reads w.name
  obtain ⟨own, weighed⟩ := exists_guideRate fits reads q.well
  simp only [fraction, summed, Outcome.ok_bind, weighed]
  split <;> exact ⟨_, rfl⟩

theorem exists_settle (fits : q.Fits) (reads : quantity.Reads q.table) (target : α)
    {off : List α} (long : off.length = q.table.size) :
    ∃ share, q.settle target quantity off = .ok share := by
  obtain ⟨reduction, taken⟩ := reads (.ofList off) (by rw [Grid.shape_ofList, long])
  obtain ⟨fraction, shared⟩ := exists_fraction fits reads
  obtain ⟨current, read⟩ := reads q.rates fits.rates
  exact ⟨_, by rw [settle, taken, Outcome.ok_bind, shared, Outcome.ok_bind, read]; rfl⟩

theorem length_off {c : Catalog String (List α)} {t : PhaseTable}
    (fit : ∀ group off, c.get? group = some off → off.length = t.size) (group : String) :
    (Reductions.off c group t).length = t.size := by
  unfold Reductions.off
  cases given : c.get? group with
  | none => exact List.length_replicate
  | some off => exact fit group off given

/-- The helper fails only on an inactive phase for which the group sets a target. -/
theorem byGuideRate_eq_error (fits : q.Fits) (failed : byGuideRate q = .error fault) :
    ∃ p controls, q.demand = .injection p ∧ q.group.injection.get? p = some controls ∧
      controls.target? ≠ none ∧ p ∉ q.table.active ∧ fault = .inactivePhase p := by
  unfold byGuideRate at failed
  cases demand : q.demand with
  | production =>
    simp only [demand] at failed
    cases given : q.group.production with
    | none => simp [given] at failed
    | some controls =>
      cases applies : controls.target? with
      | none => simp [given, applies] at failed
      | some target =>
        obtain ⟨quantity, measured, reads⟩ := productionQuantity_reads applies fits.coefficients
        have long := length_off fits.reductions.production q.group.name
        rw [← List.length_map (f := fun x => -x)] at long
        obtain ⟨share, settled⟩ := exists_settle fits reads target.val long
        simp only [given, applies, measured, Outcome.ok_bind, settled] at failed
        cases failed
  | injection p =>
    simp only [demand] at failed
    cases given : q.group.injection.get? p with
    | none => simp [given] at failed
    | some controls =>
      cases applies : controls.target? with
      | none => simp [given, applies] at failed
      | some target =>
        simp only [given, applies] at failed
        by_cases active : p ∈ q.table.active
        · obtain ⟨quantity, measured, reads⟩ :=
            injectionQuantity_reads applies fits.coefficients active
          have long := length_off fits.reductions.injection q.group.name
          obtain ⟨share, settled⟩ := exists_settle fits reads target.val long
          rw [measured, Outcome.ok_bind, settled] at failed
          cases failed
        · unfold injectionQuantity at failed
          rw [PhaseTable.position_of_inactive active] at failed
          cases failed
          exact ⟨p, controls, rfl, given, by rw [applies]; simp, active, rfl⟩

end ShareQuery

namespace Evaluator
variable {e : Evaluator α} {t : PhaseTable} {setting : Setting α} {constants : Constants α}
  {states : WellStates α} {s : WellState α} {fault : Fault α}

theorem groupAndCoefficients_eq_error (fitted : e.Fitted t)
    (failed : e.groupAndCoefficients setting constants = .error fault) :
    e.ControlRefusal setting constants fault := by
  obtain ⟨c, rfl, converter⟩ := fitted.converter
  rcases Outcome.bind_eq_error.1 failed with failed | ⟨group, -, failed⟩
  · obtain ⟨undefined, rfl⟩ := Schedule.group_eq_error failed
    exact .noGroup undefined
  · rcases Outcome.bind_eq_error.1 failed with failed | ⟨_, -, failed⟩
    · rw [converter] at failed
      rcases Outcome.bind_eq_error.1 failed with failed | ⟨_, -, failed⟩
      · obtain ⟨undefined, rfl⟩ := FormationVolume.region_eq_error failed
        exact .noRegion converter undefined
      · cases failed
    · cases failed

theorem groupAndCoefficients_eq_ok (fitted : e.Fitted t) {group : WellGroup α}
    {coefficients : List α}
    (found : e.groupAndCoefficients setting constants = .ok (group, coefficients)) :
    setting.schedule.group? e.well.groupName e.step = some group ∧
      coefficients.length = t.size := by
  obtain ⟨c, rfl, converter⟩ := fitted.converter
  obtain ⟨group', defined, found⟩ := Outcome.bind_eq_ok.1 found
  obtain ⟨coefficients', computed, found⟩ := Outcome.bind_eq_ok.1 found
  cases found
  rw [converter] at computed
  obtain ⟨r, -, computed⟩ := Outcome.bind_eq_ok.1 computed
  cases computed
  exact ⟨Schedule.group_eq_ok defined, List.length_map _⟩

theorem rescale_eq (fits : s.Fits t) (factor : α) : s.rescale factor = .ok (s.scale factor) := by
  rw [WellState.rescale, if_neg]
  rw [fits.surface]
  exact List.cons_ne_nil _ _

/-- Once the group is known, only the helper can fail. -/
theorem helper_eq_error (fitted : e.Fitted t) (fit : states.Fit t)
    (reductions : setting.reductions.Fit t) (fits : s.Fits t) {group : WellGroup α}
    {coefficients : List α} (long : coefficients.length = t.size) {demand : Demand}
    (failed : e.helper (e.shareQuery setting constants states s.surfaceRates group demand
      coefficients) = .error fault) :
    ∃ p controls, demand = .injection p ∧ group.injection.get? p = some controls ∧
      controls.target? ≠ none ∧ p ∉ e.table.active ∧ fault = .inactivePhase p := by
  obtain rfl := fitted.table
  rw [fitted.helper] at failed
  exact ShareQuery.byGuideRate_eq_error ⟨fit, fits.surface, long, reductions⟩ failed

theorem groupSwitch_eq_error (fitted : e.Fitted t) (fit : states.Fit t)
    (reductions : setting.reductions.Fit t) (fits : s.Fits t)
    (failed : e.groupSwitch setting constants states s = .error fault) :
    e.ControlRefusal setting constants fault := by
  unfold groupSwitch at failed
  split at failed
  · rename_i w well
    split at failed
    · cases failed
    rcases Outcome.bind_eq_error.1 failed with failed | ⟨p, injected, failed⟩
    · obtain ⟨fluid, rfl⟩ := Injector.phase_eq_error failed
      exact .mixture well fluid
    rcases Outcome.bind_eq_error.1 failed with failed | ⟨⟨group, coefficients⟩, found, failed⟩
    · exact groupAndCoefficients_eq_error fitted failed
    obtain ⟨defined, long⟩ := groupAndCoefficients_eq_ok fitted found
    rcases Outcome.bind_eq_error.1 failed with failed | ⟨share, -, failed⟩
    · obtain ⟨p', controls, same, targeted, applies, inactive, rfl⟩ :=
        helper_eq_error fitted fit reductions fits long failed
      cases same
      exact .inactive well (Injector.phase_eq_ok.1 injected) defined targeted applies inactive
    · rw [rescale_eq fits] at failed
      split at failed <;> cases failed
  · split at failed
    · cases failed
    rcases Outcome.bind_eq_error.1 failed with failed | ⟨⟨group, coefficients⟩, found, failed⟩
    · exact groupAndCoefficients_eq_error fitted failed
    have long := (groupAndCoefficients_eq_ok fitted found).2
    rcases Outcome.bind_eq_error.1 failed with failed | ⟨share, -, failed⟩
    · obtain ⟨p', controls, same, -⟩ := helper_eq_error fitted fit reductions fits long failed
      cases same
    · rw [rescale_eq fits] at failed
      split at failed <;> cases failed

theorem controlSwitch_eq_error (fitted : e.Fitted t) (fit : states.Fit t)
    (reductions : setting.reductions.Fit t) (fits : s.Fits t)
    (failed : e.controlSwitch setting constants states s = .error fault) :
    e.ControlRefusal setting constants fault := by
  rcases Outcome.bind_eq_error.1 failed with failed | ⟨switched, -, failed⟩
  · exact individualSwitch_eq_error fitted fits failed
  · cases switched with
    | some s' => cases failed
    | none => exact groupSwitch_eq_error fitted fit reductions fits failed

end Evaluator
end WellControl
