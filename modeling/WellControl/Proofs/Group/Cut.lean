import Mathlib.Algebra.BigOperators.Ring.List
import Mathlib.Algebra.Order.Field.Basic
import Mathlib.Tactic.FieldSimp
import Mathlib.Tactic.Linarith
import Mathlib.Tactic.Ring
import WellControl.Proofs.Group.CurrentRates
import WellControl.Proofs.Pass.Visit

/-! # Cutting a producer to its share

A producer without limits of its own that is asked for its share by current rates is cut by the
factor that its whole group would need at that moment (`Evaluator.produced_visit`). -/
set_option autoImplicit false

namespace WellControl

/-- An evaluator asks for a producer's share of its group's target by current rates. -/
structure Evaluator.AsksFor (e : Evaluator ℚ) (p : Producer ℚ) (setting : Setting ℚ)
    (group : WellGroup ℚ) (t : PhaseTable) : Prop where
  well : e.well = .producer p
  table : e.table = t
  helper : e.helper = ShareQuery.byGuideRate
  noGuideRates : e.guideRates = none
  group : setting.schedule.group group.name e.step = .ok group

structure Setting.HasTarget (setting : Setting ℚ) (group : WellGroup ℚ)
    (mode : GroupProductionMode) (target : ℚ) : Prop where
  controls : ∃ controls, group.production = some controls ∧ controls.mode = mode ∧
    controls.target?.map Subtype.val = some target
  surface : mode.isSurface = true
  positive : 0 < target
  noReduction : setting.reductions.production.get? group.name = none

/-- A producer that is on no limit of its own and not under group control. -/
structure Producer.Free (p : Producer ℚ) (mode : GroupProductionMode) (t : PhaseTable)
    (constants : Constants ℚ) (states : WellStates ℚ) : Prop where
  unlimited : ∀ m ∈ ProducerMode.visitingOrder, p.controls.has m = false
  notUnder : ∀ s, states.get? p.name = some s → s.productionControl ≠ .grup
  above : constants.rateEpsilon.val < states.produced mode t p.name

variable {setting : Setting ℚ} {group : WellGroup ℚ} {mode : GroupProductionMode} {t : PhaseTable}
  {target time : ℚ}

namespace Evaluator
variable {e : Evaluator ℚ} {p : Producer ℚ}

theorem individualSwitch_of_unlimited (well : e.well = .producer p)
    (unlimited : ∀ m ∈ ProducerMode.visitingOrder, p.controls.has m = false)
    (constants : Constants ℚ) (s : WellState ℚ) : e.individualSwitch constants s = .ok none := by
  unfold individualSwitch
  simp only [well, firstExceeded_of_none_enabled s.productionControl unlimited]
  rfl

theorem groupAndCoefficients_group (asks : e.AsksFor p setting group t)
    (member : p ∈ setting.schedule.producersOf group.name) {constants : Constants ℚ}
    {group' : WellGroup ℚ} {coefficients : List ℚ}
    (found : e.groupAndCoefficients setting constants = .ok (group', coefficients)) :
    group' = group := by
  obtain ⟨group'', defined, found⟩ := Outcome.bind_eq_ok.1 found
  obtain ⟨_, _, found⟩ := Outcome.bind_eq_ok.1 found
  cases found
  have groupName : e.well.groupName = group.name := by
    rw [asks.well]
    exact of_decide_eq_true (List.mem_filter.1 member).2
  rw [groupName, asks.group] at defined
  exact (Except.ok.inj defined).symm

/-- What the helper answers to a producer of the group. -/
theorem answer_of_asksFor (asks : e.AsksFor p setting group t)
    (has : setting.HasTarget group mode target)
    (member : p ∈ setting.schedule.producersOf group.name) {constants : Constants ℚ}
    {states : WellStates ℚ} {s : WellState ℚ}
    (flowing : ∀ v ∈ setting.schedule.producersOf group.name, 0 < states.produced mode t v.name)
    (found : states.get? p.name = some s)
    (above : constants.rateEpsilon.val < states.produced mode t p.name) (coefficients : List ℚ) :
    e.helper (e.shareQuery setting constants states s.surfaceRates group .production
        coefficients) =
      .ok (if p.efficiency.val * states.total mode t (setting.schedule.producersOf group.name) ≤
          target then .kept
        else ⟨true, target / (p.efficiency.val *
          states.total mode t (setting.schedule.producersOf group.name))⟩) := by
  have table := asks.table
  subst table
  have shared : (e.shareQuery setting constants states s.surfaceRates group .production
      coefficients).ByCurrentRates mode target :=
    ⟨rfl, has.controls, has.surface, has.positive, has.noReduction, asks.noGuideRates⟩
  have own : s.surfaceRates.produced mode e.table = states.produced mode e.table p.name := by
    rw [WellStates.produced, found]
  have self : e.name = p.name := by
    rw [name, asks.well]
    rfl
  have efficiency : e.well.header.efficiency = p.efficiency := by
    rw [asks.well]
    rfl
  have answer := ShareQuery.byGuideRate_eq shared flowing member self own above
  rw [asks.helper, answer]
  simp only [shareQuery, efficiency]

/-- A visit to a producer of the group cuts it as the group would have to be cut at that moment. -/
theorem produced_visit (asks : e.AsksFor p setting group t)
    (has : setting.HasTarget group mode target)
    (member : p ∈ setting.schedule.producersOf group.name) {w after : World ℚ} {report : StepReport}
    (flowing : ∀ v ∈ setting.schedule.producersOf group.name, 0 < w.states.produced mode t v.name)
    (free : p.Free mode t w.constants w.states)
    (visited : e.visit setting time w = (.ok report, after)) :
    after.states.produced mode t p.name = w.states.produced mode t p.name *
      min 1 (target / (p.efficiency.val *
        w.states.total mode t (setting.schedule.producersOf group.name))) := by
  have name_eq : e.name = p.name := by
    rw [name, asks.well]
    rfl
  obtain ⟨s, switched, b, found, checked, _, _, rfl⟩ := visit_ok visited
  rw [controlSwitch, individualSwitch_of_unlimited asks.well free.unlimited] at checked
  change e.groupSwitch setting w.constants w.states s = .ok switched at checked
  have after_eq := w.state_withState_self found switched
  rw [name_eq] at found after_eq
  obtain ⟨under, _⟩ | ⟨_, q, share, asked, answer, result⟩ := groupSwitch_eq_ok checked
  · rw [asks.well] at under
    exact absurd (Sum.inr.inj under) (free.notUnder s found)
  obtain ⟨d, group', coefficients, demanded, groupFound, rfl⟩ := groupQuestion_eq_ok.1 asked
  rw [asks.well] at demanded result
  cases demanded
  cases groupAndCoefficients_group asks member groupFound
  rw [answer_of_asksFor asks has member flowing found free.above] at answer
  cases answer
  have produced_before : w.states.produced mode t p.name = s.surfaceRates.produced mode t := by
    rw [WellStates.produced, found]
  have produced_after : ((w.withState e.name switched).withBooks e.label b).states.produced mode t
      p.name = (switched.getD s).surfaceRates.produced mode t := by
    rw [WellStates.produced, World.states_withBooks, name_eq, after_eq]
  have flows : 0 < s.surfaceRates.produced mode t := by
    rw [← produced_before]
    exact flowing p member
  have weighted : 0 < p.efficiency.val *
      w.states.total mode t (setting.schedule.producersOf group.name) :=
    mul_pos p.efficiency.2.1 (w.states.total_pos flowing member)
  rw [produced_after, produced_before, result]
  split_ifs with within exceeded exceeded
  · cases exceeded
  · rw [Option.getD_none, min_eq_left ((one_le_div weighted).2 within), mul_one]
  · rw [min_eq_right ((div_le_one weighted).2 (not_le.1 within).le)]
    exact Grid.produced_map has.surface flows _
  · exact absurd rfl exceeded

end Evaluator

theorem WellStates.produced_congr {states states' : WellStates ℚ} {name : String}
    (same : states'.get? name = states.get? name) :
    states'.produced mode t name = states.produced mode t name := by
  rw [produced, produced, same]

theorem Producer.Free.congr {p : Producer ℚ} {constants : Constants ℚ}
    {states states' : WellStates ℚ} (free : p.Free mode t constants states)
    (same : states'.get? p.name = states.get? p.name) :
    p.Free mode t constants states' where
  unlimited := free.unlimited
  notUnder := by
    rw [same]
    exact free.notUnder
  above := by
    rw [WellStates.produced_congr same]
    exact free.above

end WellControl
