import WellControl.Proofs.Control.Faults
import WellControl.Proofs.Control.Settled
import WellControl.Proofs.Group.Standing

/-! # Wells with a limit tighter than their share

A well may have a limit of its own on the very quantity that its group's target limits, and a lower
one than its share.  A check of its controls then comes upon that limit before the share, unless the
well runs on it: the current control mode is exempt.  So the well is put under group control exactly
if it runs on that limit, keeps its others, and flows above its share all the same
(`Evaluator.grouped_iff_of_tighterLimit`). -/
set_option autoImplicit false

namespace WellControl

/-- A limit of a producer's own on what a production target limits, with its mode. -/
def Producer.limitOn (w : Producer ℚ) : GroupProductionMode → Option (ProducerMode × ℚ)
  | .orat => some (.orat, w.controls.oilRate.val)
  | .wrat => some (.wrat, w.controls.waterRate.val)
  | .grat => some (.grat, w.controls.gasRate.val)
  | .lrat => some (.lrat, w.controls.liquidRate.val)
  | .none | .resv | .fld => none

inductive Well.LimitOn : Well ℚ → WellGroup ℚ → InjectorMode ⊕ ProducerMode → ℚ → Prop
  | injector {w : Injector ℚ} {group : WellGroup ℚ} {p : Phase} {controls : InjectionTarget ℚ}
      (fluid : w.controls.fluid.phase? = some p) (given : group.injection.get? p = some controls)
      (mode : controls.mode = .rate) (enabled : w.controls.has .rate = true) :
      LimitOn (.injector w) group (.inl .rate) w.controls.surfaceRate.val
  | producer {w : Producer ℚ} {group : WellGroup ℚ} {controls : ProductionTarget ℚ}
      {m : ProducerMode} {limit : ℚ} (given : group.production = some controls)
      (on : w.limitOn controls.mode = some (m, limit))
      (enabled : w.controls.has m = true) : LimitOn (.producer w) group (.inr m) limit

theorem Producer.mem_visitingOrder_of_limitOn {w : Producer ℚ} {mode : GroupProductionMode}
    {m : ProducerMode} {limit : ℚ} (on : w.limitOn mode = some (m, limit)) :
    m ∈ ProducerMode.visitingOrder := by
  cases mode with
  | orat | wrat | grat | lrat =>
    cases on
    decide
  | none | resv | fld => cases on

theorem Well.LimitOn.mem_limitModes {w : Well ℚ} {group : WellGroup ℚ}
    {m : InjectorMode ⊕ ProducerMode} {limit : ℚ} (on : w.LimitOn group m limit) :
    m ∈ w.limitModes := by
  cases on with
  | injector _ _ _ enabled =>
    exact List.mem_map_of_mem (List.mem_filter.2 ⟨by decide, enabled⟩)
  | producer _ on enabled =>
    exact List.mem_map_of_mem
      (List.mem_filter.2 ⟨Producer.mem_visitingOrder_of_limitOn on, enabled⟩)

/-! ## Two readings of one quantity -/

section Readings
variable {t : PhaseTable} {coefficients : List ℚ} {quantity : RateQuantity ℚ} {s : WellState ℚ}

/-- A producer's own check reads the quantity that its group's target limits. -/
theorem Producer.exceeds_of_limitOn {w : Producer ℚ} {mode : GroupProductionMode}
    {m : ProducerMode} {limit : ℚ} (on : w.limitOn mode = some (m, limit))
    (measured : productionQuantity mode t coefficients = .ok quantity)
    (converter : RateConverter ℚ) (constants : Constants ℚ) :
    w.exceeds t converter constants s m =
      do return decide (limit < (← quantity s.surfaceRates)) := by
  cases mode with
  | orat | wrat | grat | lrat =>
    cases on
    cases measured
    simp only [exceeds, WellState.surface, bind_assoc, pure_bind, neg_add']
  | none | resv | fld => cases on

/-- An injector's own check reads the quantity that its group's target limits. -/
theorem Injector.exceeds_rate {w : Injector ℚ} {p : Phase} (phase : w.phase = .ok p)
    (measured : injectionQuantity .rate p t coefficients = .ok quantity) :
    w.exceeds t s .rate =
      do return decide (w.controls.surfaceRate.val < (← quantity s.surfaceRates)) := by
  obtain ⟨_, positioned, measured⟩ := Outcome.bind_eq_ok.1 measured
  cases measured
  have active : p ∈ t.active := by
    by_contra inactive
    rw [PhaseTable.position_of_inactive inactive] at positioned
    cases positioned
  simp only [exceeds, phase, PhaseTable.rateOrZero, PhaseTable.has_iff.2 active, if_true,
    WellState.surface, Outcome.ok_bind]

theorem PhaseTable.rate_nil_ne_ok {p : Phase} {x : ℚ} : t.rate [] p ≠ .ok x := by
  intro read
  obtain ⟨i, _, missing⟩ := Outcome.bind_eq_ok.1 read
  cases missing

/-- Nothing is read off an array without entries but what is taken for nothing. -/
theorem PhaseTable.rateOrZero_nil {p : Phase} {x : ℚ} (read : t.rateOrZero [] p = .ok x) :
    x = 0 := by
  unfold rateOrZero at read
  split at read
  · exact absurd read rate_nil_ne_ok
  · cases read
    rfl

theorem Producer.quantity_nil_of_limitOn {w : Producer ℚ} {mode : GroupProductionMode}
    {m : ProducerMode} {limit : ℚ} (on : w.limitOn mode = some (m, limit))
    (measured : productionQuantity mode t coefficients = .ok quantity) {rates : Grid ℚ} {x : ℚ}
    (empty : rates.line = []) (read : quantity rates = .ok x) : x = 0 := by
  cases mode with
  | orat | wrat | grat =>
    cases measured
    simp only [empty] at read
    obtain ⟨y, found, result⟩ := Outcome.bind_eq_ok.1 read
    cases result
    rw [PhaseTable.rateOrZero_nil found, neg_zero]
  | lrat =>
    cases measured
    simp only [empty] at read
    obtain ⟨oil, oilFound, read⟩ := Outcome.bind_eq_ok.1 read
    obtain ⟨water, waterFound, result⟩ := Outcome.bind_eq_ok.1 read
    cases result
    rw [PhaseTable.rateOrZero_nil oilFound, PhaseTable.rateOrZero_nil waterFound, add_zero,
      neg_zero]
  | none | resv | fld => cases on

end Readings

/-- A question has one answer, and a well one share. -/
theorem ShareQuery.Standing.share_eq {q : ShareQuery ℚ} (st st' : q.Standing) :
    st.share = st'.share := by
  obtain ⟨_, _, _, _, _, _, limits, reduced, shared, _⟩ := st
  obtain ⟨_, _, _, _, _, _, limits', reduced', shared', _⟩ := st'
  cases limits with
  | production demand given applies measured =>
    cases limits' with
    | production _ given' applies' measured' =>
      cases given.symm.trans given'
      cases applies.symm.trans applies'
      cases measured.symm.trans measured'
      cases reduced.symm.trans reduced'
      cases shared.symm.trans shared'
      rfl
    | injection demand' => cases demand.symm.trans demand'
  | injection demand given applies measured =>
    cases limits' with
    | production demand' => cases demand.symm.trans demand'
    | injection demand' given' applies' measured' =>
      cases demand.symm.trans demand'
      cases given.symm.trans given'
      cases applies.symm.trans applies'
      cases measured.symm.trans measured'
      cases reduced.symm.trans reduced'
      cases shared.symm.trans shared'
      rfl

namespace Evaluator
variable {e : Evaluator ℚ} {setting : Setting ℚ} {constants : Constants ℚ} {states : WellStates ℚ}
  {s : WellState ℚ} {q : ShareQuery ℚ} {m : InjectorMode ⊕ ProducerMode} {limit : ℚ}

/-! ## The question -/

/-- What is asked about a well that a check of the share depends on. -/
theorem of_groupQuestion (asked : e.groupQuestion setting constants states s = .ok q) :
    e.well.demand = .ok q.demand ∧ q.table = e.table ∧ q.rates = s.surfaceRates ∧
      q.constants = constants := by
  obtain ⟨demand, group, coefficients, demanded, _, rfl⟩ := groupQuestion_eq_ok.1 asked
  exact ⟨demanded, rfl, rfl, rfl⟩

inductive LimitRead (e : Evaluator ℚ) (q : ShareQuery ℚ) :
    InjectorMode ⊕ ProducerMode → ℚ → RateQuantity ℚ → Prop
  | injector {w : Injector ℚ} {p : Phase} {quantity : RateQuantity ℚ} (well : e.well = .injector w)
      (enabled : w.controls.has .rate = true) (phase : w.phase = .ok p)
      (measured : injectionQuantity .rate p q.table q.coefficients = .ok quantity) :
      LimitRead e q (.inl .rate) w.controls.surfaceRate.val quantity
  | producer {w : Producer ℚ} {mode : GroupProductionMode} {m : ProducerMode} {limit : ℚ}
      {quantity : RateQuantity ℚ} (well : e.well = .producer w)
      (enabled : w.controls.has m = true) (on : w.limitOn mode = some (m, limit))
      (measured : productionQuantity mode q.table q.coefficients = .ok quantity) :
      LimitRead e q (.inr m) limit quantity

theorem limitRead_of_limitOn {target : ℚ} {quantity : RateQuantity ℚ} {off : List ℚ}
    (demanded : e.well.demand = .ok q.demand) (on : e.well.LimitOn q.group m limit)
    (limits : q.Limits target quantity off) : e.LimitRead q m limit quantity := by
  cases well : e.well with
  | injector w =>
    rw [well] at on demanded
    obtain ⟨p, phase, demand⟩ := Outcome.bind_eq_ok.1 demanded
    cases on with
    | injector fluid given mode enabled =>
      cases limits with
      | production demand' => cases demand.trans (congrArg Except.ok demand')
      | injection demand' given' _ measured =>
        cases (Except.ok.inj demand).trans demand'
        cases fluid.symm.trans (Injector.phase_eq_ok.1 phase)
        cases given.symm.trans given'
        rw [mode] at measured
        exact .injector well enabled phase measured
  | producer w =>
    rw [well] at on demanded
    cases on with
    | producer given on enabled =>
      cases limits with
      | production _ given' _ measured =>
        cases given.symm.trans given'
        exact .producer well enabled on measured
      | injection demand' => cases demanded.trans (congrArg Except.ok demand')

namespace LimitRead
variable {quantity : RateQuantity ℚ} {current : ℚ}

/-- A well that keeps its limits, and does not run on this one, keeps this one too. -/
theorem current_le (read : e.LimitRead q m limit quantity) (table : q.table = e.table)
    (keeps : e.KeepsLimits constants s) (other : e.well.mode s ≠ m)
    (measured : quantity s.surfaceRates = .ok current) : current ≤ limit := by
  have answer : (do return decide (limit < (← quantity s.surfaceRates)) : Outcome ℚ Bool) =
      .ok false := by
    cases read with
    | injector well enabled phase quantified =>
      simp only [KeepsLimits, well, ← table] at keeps
      rw [well] at other
      have kept := keeps .rate (by decide) enabled fun same => other (congrArg Sum.inl same.symm)
      rwa [Injector.exceeds_rate phase quantified] at kept
    | producer well enabled on quantified =>
      simp only [KeepsLimits, well, ← table] at keeps
      rw [well] at other
      have kept := keeps _ (Producer.mem_visitingOrder_of_limitOn on) enabled
        fun same => other (congrArg Sum.inr same.symm)
      rwa [Producer.exceeds_of_limitOn on quantified] at kept
  rw [measured, Outcome.ok_bind] at answer
  exact not_lt.1 (of_decide_eq_false (Except.ok.inj answer))

/-- A bare number has no rate that could be above its share. -/
theorem shape_ne (read : e.LimitRead q m limit quantity) {rates : Grid ℚ}
    (measured : quantity rates = .ok current) (flowing : current ≠ 0) : rates.shape ≠ [] := by
  intro bare
  have empty : rates.line = [] := by
    obtain ⟨shape, entries, full⟩ := rates
    subst bare
    rfl
  cases read with
  | injector _ _ _ quantified =>
    obtain ⟨_, _, quantified⟩ := Outcome.bind_eq_ok.1 quantified
    cases quantified
    simp only [empty] at measured
    exact PhaseTable.rate_nil_ne_ok measured
  | producer _ _ on quantified =>
    exact flowing (Producer.quantity_nil_of_limitOn on quantified empty measured)

end LimitRead

/-! ## The check of the share -/

/-- A well that the check puts under group control flows above its share. -/
theorem beyond_share_of_groupSwitch {s' : WellState ℚ} (helper : e.helper = ShareQuery.byGuideRate)
    (switched : e.groupSwitch setting constants states s = .ok (some s')) :
    ∃ q, e.groupQuestion setting constants states s = .ok q ∧ ∃ st : q.Standing,
      constants.rateEpsilon.val < st.current ∧ st.share < st.current := by
  obtain ⟨_, q, share, asked, answer, exceeded, _⟩ := groupSwitch_eq_some switched
  rw [helper] at answer
  obtain ⟨st, rfl⟩ := ShareQuery.exists_standing answer exceeded
  refine ⟨q, asked, st, ?_⟩
  rw [← (of_groupQuestion asked).2.2.2]
  exact ShareQuery.exceeded_compare_iff.1 exceeded

/-- A well that flows above its share is put under group control. -/
theorem groupSwitch_of_beyond_share (helper : e.helper = ShareQuery.byGuideRate)
    (free : e.well.mode s ≠ e.well.groupMode)
    (asked : e.groupQuestion setting constants states s = .ok q) (st : q.Standing)
    (above : constants.rateEpsilon.val < st.current) (beyond : st.share < st.current)
    (listed : s.surfaceRates.shape ≠ []) :
    ∃ factor, e.groupSwitch setting constants states s =
      .ok (some (e.well.underGroup (s.scale factor))) := by
  rw [← (of_groupQuestion asked).2.2.2] at above
  have exceeded : (q.compare st.current st.share).exceeded = true :=
    ShareQuery.exceeded_compare_iff.2 ⟨above, beyond⟩
  refine ⟨(q.compare st.current st.share).factor, ?_⟩
  rw [groupSwitch_eq, if_neg free, asked, Outcome.ok_bind, helper,
    ShareQuery.byGuideRate_of_standing st, Outcome.ok_bind, if_pos exceeded, WellState.rescale,
    if_neg listed]
  rfl

/-- A check of a well's own limits leaves it on one of them if it switches it. -/
theorem mode_of_individualSwitch {s' : WellState ℚ}
    (switched : e.individualSwitch constants s = .ok (some s')) :
    e.well.mode s' ∈ e.well.limitModes := by
  obtain ⟨w, m, well, rfl, visited, enabled, _⟩ | ⟨w, m, well, rfl, visited, enabled, _⟩ :=
    individualSwitch_eq_some switched
  · rw [well]
    exact List.mem_map_of_mem (List.mem_filter.2 ⟨visited, enabled⟩)
  · rw [well]
    exact List.mem_map_of_mem (List.mem_filter.2 ⟨visited, enabled⟩)

/-- A limit of a well on the quantity of its group's target that is below its share, wherever it
has one. -/
def TighterLimit (e : Evaluator ℚ) (setting : Setting ℚ) (constants : Constants ℚ)
    (states : WellStates ℚ) (s : WellState ℚ) (m : InjectorMode ⊕ ProducerMode) : Prop :=
  ∃ limit, ∀ q, e.groupQuestion setting constants states s = .ok q → ∀ st : q.Standing,
    e.well.LimitOn q.group m limit ∧ limit < st.share

theorem tighterLimit_of_standing (asked : e.groupQuestion setting constants states s = .ok q)
    (st : q.Standing) (on : e.well.LimitOn q.group m limit) (below : limit < st.share) :
    e.TighterLimit setting constants states s m := by
  refine ⟨limit, fun q' asked' st' => ?_⟩
  cases asked.symm.trans asked'
  exact ⟨on, st.share_eq st' ▸ below⟩

def Grouped (e : Evaluator ℚ) (setting : Setting ℚ) (constants : Constants ℚ)
    (states : WellStates ℚ) (s : WellState ℚ) : Prop :=
  ∃ s', e.controlSwitch setting constants states s = .ok (some s') ∧
    e.well.mode s' = e.well.groupMode

end Evaluator

theorem Evaluator.grouped_iff_of_tighterLimit {e : Evaluator ℚ} {setting : Setting ℚ}
    {constants : Constants ℚ} {states : WellStates ℚ} {s : WellState ℚ}
    {m : InjectorMode ⊕ ProducerMode} (helper : e.helper = ShareQuery.byGuideRate)
    (tighter : e.TighterLimit setting constants states s m) :
    e.Grouped setting constants states s ↔
      e.well.mode s = m ∧ e.KeepsLimits constants s ∧
        ∃ q, e.groupQuestion setting constants states s = .ok q ∧ ∃ st : q.Standing,
          constants.rateEpsilon.val < st.current ∧ st.share < st.current := by
  obtain ⟨limit, tighter⟩ := tighter
  constructor
  · rintro ⟨s', switched, grouped⟩
    obtain ⟨individual, checked, switched⟩ := Outcome.bind_eq_ok.1 switched
    cases individual with
    | some next =>
      cases switched
      exact absurd (grouped ▸ mode_of_individualSwitch checked) e.well.not_mem_limitModes.1
    | none =>
      have keeps := individualSwitch_eq_none_iff.1 checked
      obtain ⟨q, asked, st, above, beyond⟩ := beyond_share_of_groupSwitch helper switched
      obtain ⟨on, below⟩ := tighter q asked st
      obtain ⟨demanded, table, rates, _⟩ := of_groupQuestion asked
      refine ⟨?_, keeps, q, asked, st, above, beyond⟩
      by_contra other
      have kept := (limitRead_of_limitOn demanded on st.limits).current_le table keeps other
        (rates ▸ st.measured)
      exact absurd kept (not_le.2 (below.trans beyond))
  · rintro ⟨onLimit, keeps, q, asked, st, above, beyond⟩
    obtain ⟨on, _⟩ := tighter q asked st
    obtain ⟨demanded, _, rates, _⟩ := of_groupQuestion asked
    have free : e.well.mode s ≠ e.well.groupMode := fun under =>
      e.well.not_mem_limitModes.1 (under ▸ onLimit ▸ on.mem_limitModes)
    have flowing : st.current ≠ 0 := (constants.rateEpsilon.2.trans_lt above).ne'
    have listed : s.surfaceRates.shape ≠ [] :=
      rates ▸ (limitRead_of_limitOn demanded on st.limits).shape_ne st.measured flowing
    obtain ⟨factor, switched⟩ :=
      groupSwitch_of_beyond_share helper free asked st above beyond listed
    refine ⟨e.well.underGroup (s.scale factor), ?_, ?_⟩
    · rw [controlSwitch, individualSwitch_eq_none_iff.2 keeps, Outcome.ok_bind]
      exact switched
    · cases e.well <;> rfl

section Tight

def Producer.tight : Producer ℚ :=
  { Producer.plain "P" "G" with
    controls := { ProductionControls.free with modes := [.orat], oilRate := ⟨60, by decide⟩ } }

def WellGroup.tight : WellGroup ℚ :=
  ⟨"G", none, some ⟨.orat, some ⟨90, by decide +kernel⟩, none, none, none, none⟩, .empty⟩

/-- The producer runs on its own limit of 60 and flows at 100.  That its limit is below its share of
90 does not keep it from being put under group control. -/
theorem tight_grouped_on_limit :
    let e : Evaluator ℚ := .plain (.producer .tight)
    let setting := Setting.ofGroup .tight [.tight]
    let s : WellState ℚ := { WellState.flowing "P" (0, -100, 0) [] with productionControl := .orat }
    let states := WellStates.ofStates [s]
    e.TighterLimit setting .standard states s (.inr .orat) ∧
      e.Grouped setting .standard states s := by
  intro e setting s states
  let q := e.shareQuery setting .standard states s.surfaceRates .tight .production [1, 1, 1]
  have asked : e.groupQuestion setting .standard states s = .ok q := rfl
  let st : q.Standing :=
    ⟨_, _, _, 0, 1, 100, .production rfl rfl rfl rfl, by decide +kernel, by decide +kernel,
      by decide +kernel⟩
  constructor
  · exact Evaluator.tighterLimit_of_standing asked st (.producer rfl rfl rfl) (by decide +kernel)
  · obtain ⟨factor, switched⟩ := Evaluator.groupSwitch_of_beyond_share rfl (by decide) asked st
      (by decide +kernel) (by decide +kernel) (List.cons_ne_nil _ _)
    exact ⟨_, switched, rfl⟩

/-- An injector that runs on its pressure and flows at 100, above its own limit of 60 and its share
of 90, goes over to its own limit. -/
theorem tight_injector_not_grouped :
    let w : Injector ℚ := { WellHeader.plain "I" "G" with
      controls :=
        { InjectionControls.free .water with
          modes := [.bhp, .rate], surfaceRate := ⟨60, by decide⟩ } }
    let group : WellGroup ℚ :=
      ⟨"G", none, none, Catalog.empty.put .water ⟨.rate, some ⟨90, by decide +kernel⟩, none⟩⟩
    let e : Evaluator ℚ := .plain (.injector w)
    let setting : Setting ℚ := ⟨⟨Catalog.empty.put "G" group, ⟨[w], []⟩, .empty⟩, .empty, .empty⟩
    let s : WellState ℚ := { WellState.flowing "I" (100, 0, 0) [] with injectionControl := .bhp }
    let states := WellStates.ofStates [s]
    e.helper = ShareQuery.byGuideRate ∧
      e.TighterLimit setting .standard states s (.inl .rate) ∧
      (∃ q, e.groupQuestion setting .standard states s = .ok q ∧ ∃ st : q.Standing,
        Constants.standard.rateEpsilon.val < st.current ∧ st.share < st.current) ∧
      ¬ e.Grouped setting .standard states s := by
  intro w group e setting s states
  let q := e.shareQuery setting .standard states s.surfaceRates group (.injection .water) [1, 1, 1]
  have asked : e.groupQuestion setting .standard states s = .ok q := rfl
  let st : q.Standing :=
    ⟨_, _, _, 0, 1, 100, .injection rfl rfl rfl rfl, by decide +kernel, by decide +kernel,
      by decide +kernel⟩
  have tighter : e.TighterLimit setting .standard states s (.inl .rate) :=
    Evaluator.tighterLimit_of_standing asked st (.injector rfl rfl rfl rfl) (by decide +kernel)
  refine ⟨rfl, tighter, ⟨q, asked, st, by decide +kernel, by decide +kernel⟩, fun grouped => ?_⟩
  have onLimit := ((Evaluator.grouped_iff_of_tighterLimit rfl tighter).1 grouped).1
  cases onLimit

end Tight
end WellControl
