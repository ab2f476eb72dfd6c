import Mathlib.Algebra.Order.Field.Basic
import Mathlib.Tactic.FieldSimp
import Mathlib.Tactic.Linarith
import WellControl.Group.Share
import WellControl.Proofs.Group.Amount

/-! # Targets shared by current rates

Without guide rates every producer of a group counts with what it produces at the moment it is
asked, so that its share of the target is in proportion to that (`byGuideRate_eq`): all producers
are cut by the one factor that would bring the group's momentary total down to the target. -/
set_option autoImplicit false

namespace WellControl

theorem Scalar.larger_eq_max (a b : ℚ) : larger a b = max a b := by
  rw [larger, max_def]
  split_ifs <;> linarith

def Schedule.producersOf (s : Schedule ℚ) (group : String) : List (Producer ℚ) :=
  s.wells.producers.filter fun w => w.groupName = group

def WellStates.produced (states : WellStates ℚ) (mode : GroupProductionMode) (t : PhaseTable)
    (name : String) : ℚ :=
  match states.get? name with
  | some s => s.surfaceRates.produced mode t
  | none => 0

def WellStates.total (states : WellStates ℚ) (mode : GroupProductionMode) (t : PhaseTable)
    (producers : List (Producer ℚ)) : ℚ :=
  (producers.map fun w => states.produced mode t w.name).sum

namespace WellStates
variable {mode : GroupProductionMode} {t : PhaseTable} {producers : List (Producer ℚ)}

theorem produced_le_total (states : WellStates ℚ)
    (flowing : ∀ w ∈ producers, 0 ≤ states.produced mode t w.name) {p : Producer ℚ}
    (member : p ∈ producers) : states.produced mode t p.name ≤ states.total mode t producers := by
  apply List.single_le_sum
  · intro x listed
    obtain ⟨w, listed', rfl⟩ := List.mem_map.1 listed
    exact flowing w listed'
  · exact List.mem_map.2 ⟨p, member, rfl⟩

theorem total_pos (states : WellStates ℚ)
    (flowing : ∀ w ∈ producers, 0 < states.produced mode t w.name) {p : Producer ℚ}
    (member : p ∈ producers) : 0 < states.total mode t producers :=
  (flowing p member).trans_le
    (states.produced_le_total (fun w listed => (flowing w listed).le) member)

end WellStates

namespace ShareQuery

/-- A group's target on a surface rate, which nothing is taken off, is shared by current rates. -/
structure ByCurrentRates (q : ShareQuery ℚ) (mode : GroupProductionMode) (target : ℚ) : Prop where
  demand : q.demand = .production
  controls : ∃ controls, q.group.production = some controls ∧ controls.mode = mode ∧
    controls.target?.map Subtype.val = some target
  surface : mode.isSurface = true
  positive : 0 < target
  noReduction : q.reductions.production.get? q.group.name = none
  noGuideRates : q.guideRates = none

variable {q : ShareQuery ℚ} {mode : GroupProductionMode} {target : ℚ}

theorem siblings_eq (production : q.demand = .production) :
    q.siblings = (q.schedule.producersOf q.group.name).map Well.producer := by
  simp only [siblings, production, Wells.inGroup, Wells.all, List.filter_append, List.filter_map,
    List.filter_filter]
  simp only [Function.comp_def, Bool.false_and, Bool.true_and, List.filter_false, List.map_nil,
    List.nil_append]
  rfl

theorem guideRate_eq (shared : q.ByCurrentRates mode target) {quantity : RateQuantity ℚ}
    (measured : productionQuantity mode q.table [] = .ok quantity) {name : String}
    (flowing : 0 < q.states.produced mode q.table name) :
    q.guideRate quantity name = .ok (q.states.produced mode q.table name) := by
  unfold WellStates.produced at flowing ⊢
  unfold guideRate
  cases found : q.states.get? name with
  | none =>
    rw [found] at flowing
    exact absurd flowing (lt_irrefl 0)
  | some s =>
    simp only [found] at flowing
    simp only [shared.noGuideRates, Option.bind_none, Grid.quantity_eq_produced measured flowing,
      Outcome.ok_bind, Scalar.larger_eq_max, max_eq_left flowing.le]
    rfl

theorem fraction_eq (shared : q.ByCurrentRates mode target) {quantity : RateQuantity ℚ}
    (measured : productionQuantity mode q.table [] = .ok quantity)
    (flowing : ∀ w ∈ q.schedule.producersOf q.group.name, 0 < q.states.produced mode q.table w.name)
    {p : Producer ℚ} (member : p ∈ q.schedule.producersOf q.group.name) (self : q.well = p.name)
    (above : q.constants.rateEpsilon.val < q.states.produced mode q.table p.name) :
    q.fraction quantity = .ok (q.states.produced mode q.table p.name /
      q.states.total mode q.table (q.schedule.producersOf q.group.name)) := by
  have weights : q.siblings.mapM (fun w => q.guideRate quantity w.name) =
      .ok ((q.schedule.producersOf q.group.name).map fun w =>
        q.states.produced mode q.table w.name) := by
    rw [siblings_eq shared.demand, List.mapM_map]
    exact Outcome.mapM_eq_ok fun w listed => guideRate_eq shared measured (flowing w listed)
  have enough : ¬ q.states.total mode q.table (q.schedule.producersOf q.group.name) ≤
      q.constants.rateEpsilon.val := not_le.2 (above.trans_le
      (q.states.produced_le_total (fun w listed => (flowing w listed).le) member))
  simp only [fraction, weights, Outcome.ok_bind, Scalar.sum_eq]
  rw [WellStates.total] at enough ⊢
  rw [if_neg enough, self, guideRate_eq shared measured (flowing p member)]
  rfl

theorem compare_allowance (q : ShareQuery ℚ) {current total target : ℚ}
    (above : q.constants.rateEpsilon.val < current) (positive : 0 < target) (flowing : 0 < total) :
    q.compare current (q.allowance target 0 (current / total)) =
      if q.efficiency.val * total ≤ target then .kept
      else ⟨true, target / (q.efficiency.val * total)⟩ := by
  have current_pos : 0 < current := lt_of_le_of_lt q.constants.rateEpsilon.2 above
  have weighted_pos : 0 < q.efficiency.val * total := mul_pos q.efficiency.2.1 flowing
  have allowed : q.allowance target 0 (current / total) =
      current * (target / (q.efficiency.val * total)) := by
    rw [allowance, Scalar.larger_eq_max, sub_zero, max_eq_left positive.le]
    field_simp
  have within : (current ≤ q.constants.rateEpsilon.val ∨
      current ≤ current * (target / (q.efficiency.val * total))) ↔
        q.efficiency.val * total ≤ target := by
    rw [or_iff_right (not_le.2 above), le_mul_iff_one_le_right current_pos, one_le_div weighted_pos]
  rw [compare, allowed, mul_div_cancel_left₀ _ current_pos.ne']
  simp only [within]

/-- The answer to a producer of the group: it keeps its rates if the group's total at the moment,
while the well operates, is within the target, else it is cut as the total would have to be. -/
theorem byGuideRate_eq (shared : q.ByCurrentRates mode target)
    (flowing : ∀ w ∈ q.schedule.producersOf q.group.name, 0 < q.states.produced mode q.table w.name)
    {p : Producer ℚ} (member : p ∈ q.schedule.producersOf q.group.name) (self : q.well = p.name)
    (own : q.rates.produced mode q.table = q.states.produced mode q.table p.name)
    (above : q.constants.rateEpsilon.val < q.states.produced mode q.table p.name) :
    byGuideRate q = .ok
      (if q.efficiency.val * q.states.total mode q.table (q.schedule.producersOf q.group.name) ≤
          target then .kept
        else ⟨true, target / (q.efficiency.val *
          q.states.total mode q.table (q.schedule.producersOf q.group.name))⟩) := by
  obtain ⟨controls, found, mode_eq, target_eq⟩ := shared.controls
  obtain ⟨limit, applies, rfl⟩ := Option.map_eq_some_iff.1 target_eq
  obtain ⟨quantity, measured, _, still⟩ := exists_surfaceQuantity shared.surface q.table
  have nothing : ((Reductions.off q.reductions.production q.group.name q.table).map fun x => -x) =
      q.table.zeros := by
    rw [Reductions.off, shared.noReduction, Option.getD_none, PhaseTable.zeros,
      List.map_replicate, neg_zero]
  have flows : 0 < q.rates.produced mode q.table := by
    rw [own]
    exact flowing p member
  simp only [byGuideRate, shared.demand, found, applies, mode_eq, measured, Outcome.ok_bind, settle,
    nothing, still, fraction_eq shared (measured []) flowing member self above,
    Grid.quantity_eq_produced (measured []) flows, own, Outcome.pure_eq_ok]
  congr 1
  exact q.compare_allowance above shared.positive (q.states.total_pos flowing member)

end ShareQuery
end WellControl
