import Mathlib.Algebra.BigOperators.Ring.List
import Mathlib.Algebra.Order.Field.Basic
import Mathlib.Tactic.FieldSimp
import Mathlib.Tactic.Linarith
import Mathlib.Tactic.Ring
import WellControl.Proofs.Group.Cut
import WellControl.Proofs.Plain

/-! # Cutting the producers of a group in turn

A pass compares the producers of a group with their shares one after the other, and each share is
taken of what the group produces at that moment, after the cuts made so far.  The total that a later
share is in proportion to is therefore smaller, and the later share larger: the cuts do not add up
to the target.  How far above it they leave the group depends on the totals met on the way
(`WellStates.midway`). -/
set_option autoImplicit false

namespace WellControl

variable {setting : Setting ℚ} {group : WellGroup ℚ} {mode : GroupProductionMode} {t : PhaseTable}
  {target time : ℚ}

/-- What producers produce together once a pass has visited some wells. -/
def WellStates.midway (before after : WellStates ℚ) (mode : GroupProductionMode) (t : PhaseTable)
    (visited : List String) (producers : List (Producer ℚ)) : ℚ :=
  (producers.map fun w =>
    if w.name ∈ visited then after.produced mode t w.name else before.produced mode t w.name).sum

/-- A producer is cut as its group would have to be cut once some wells have been visited. -/
def WellStates.CutAfter (before after : WellStates ℚ) (mode : GroupProductionMode) (t : PhaseTable)
    (target : ℚ) (producers : List (Producer ℚ)) (visited : List String) (p : Producer ℚ) : Prop :=
  after.produced mode t p.name = before.produced mode t p.name *
    min 1 (target / (p.efficiency.val * before.midway after mode t visited producers))

theorem WellStates.midway_nil (before after : WellStates ℚ) (producers : List (Producer ℚ)) :
    before.midway after mode t [] producers = before.total mode t producers := by
  simp only [midway, total, List.not_mem_nil, if_false]

theorem WellStates.midway_step {before middle after : WellStates ℚ} {name : String}
    (visited : List String) {producers : List (Producer ℚ)}
    (untouched : ∀ v ∈ producers, v.name ≠ name →
      middle.produced mode t v.name = before.produced mode t v.name)
    (settled : ∀ v ∈ producers, v.name = name → v.name ∉ visited ∧
      after.produced mode t v.name = middle.produced mode t v.name) :
    middle.midway after mode t visited producers =
      before.midway after mode t (name :: visited) producers := by
  rw [midway, midway]
  congr 1
  apply List.map_congr_left
  intro v member
  by_cases same : v.name = name
  · obtain ⟨fresh, kept⟩ := settled v member same
    rw [if_neg fresh, if_pos (List.mem_cons.2 (.inl same)), kept]
  · simp only [List.mem_cons, same, false_or, untouched v member same]

section Run
variable {e : Evaluator ℚ} {rest : List (Evaluator ℚ)} {w middle after : World ℚ}
  {report : StepReport}

/-- The producers of a group that a pass comes to are free to be cut, once each; all are flowing. -/
structure Pending (setting : Setting ℚ) (group : WellGroup ℚ) (mode : GroupProductionMode)
    (t : PhaseTable) (target : ℚ) (es : List (Evaluator ℚ)) (w : World ℚ) : Prop where
  has : setting.HasTarget group mode target
  once : ∀ p ∈ setting.schedule.producersOf group.name, (es.map Evaluator.name).count p.name ≤ 1
  asks : ∀ e ∈ es, ∀ p ∈ setting.schedule.producersOf group.name, e.name = p.name →
    e.AsksFor p setting group t
  flowing : ∀ p ∈ setting.schedule.producersOf group.name, 0 < w.states.produced mode t p.name
  free : ∀ p ∈ setting.schedule.producersOf group.name, p.name ∈ es.map Evaluator.name →
    p.Free mode t w.constants w.states

namespace Pending

theorem not_later (pending : Pending setting group mode t target (e :: rest) w) {p : Producer ℚ}
    (member : p ∈ setting.schedule.producersOf group.name) (self : p.name = e.name) :
    p.name ∉ rest.map Evaluator.name := by
  have bound := pending.once p member
  rw [List.map_cons, self, List.count_cons_self] at bound
  rw [self]
  exact List.count_eq_zero.1 (by omega)

/-- The visit to a producer of the group. -/
theorem produced_first (pending : Pending setting group mode t target (e :: rest) w)
    (visited : e.visit setting time w = (.ok report, middle)) {p : Producer ℚ}
    (member : p ∈ setting.schedule.producersOf group.name) (self : e.name = p.name) :
    middle.states.produced mode t p.name = w.states.produced mode t p.name *
      min 1 (target / (p.efficiency.val *
        w.states.total mode t (setting.schedule.producersOf group.name))) := by
  have free : p.Free mode t w.constants w.states := by
    apply pending.free p member
    rw [← self]
    exact List.mem_map_of_mem List.mem_cons_self
  exact Evaluator.produced_visit (pending.asks e List.mem_cons_self p member self) pending.has
    member pending.flowing free visited

/-- After a visit the rest of the pass is pending. -/
theorem visit (pending : Pending setting group mode t target (e :: rest) w)
    (visited : e.visit setting time w = (.ok report, middle)) :
    Pending setting group mode t target rest middle := by
  have constants_eq := e.constants_visit setting time w
  have other := fun name (different : name ≠ e.name) =>
    e.state_visit_other setting time w different
  rw [visited] at constants_eq other
  refine ⟨pending.has, ?_, ?_, ?_, ?_⟩
  · intro p member
    exact List.count_le_count_cons.trans (pending.once p member)
  · intro d listed
    exact pending.asks d (List.mem_cons_of_mem e listed)
  · intro p member
    by_cases self : e.name = p.name
    · rw [pending.produced_first visited member self]
      apply mul_pos (pending.flowing p member)
      apply lt_min one_pos
      apply div_pos pending.has.positive
      exact mul_pos p.efficiency.2.1 (w.states.total_pos pending.flowing member)
    · rw [WellStates.produced_congr (other p.name (Ne.symm self))]
      exact pending.flowing p member
  · intro p member later
    have different : p.name ≠ e.name := fun self => pending.not_later member self later
    rw [constants_eq]
    exact (pending.free p member (List.mem_cons_of_mem _ later)).congr (other p.name different)

end Pending

theorem midway_visit (pending : Pending setting group mode t target (e :: rest) w)
    (started : e.visit setting time w = (.ok report, middle)) {more : StepReport}
    (later : visitAll setting time rest middle = (.ok more, after)) {visited : List String}
    (among : visited ⊆ rest.map Evaluator.name) :
    middle.states.midway after.states mode t visited (setting.schedule.producersOf group.name) =
      w.states.midway after.states mode t (e.name :: visited)
        (setting.schedule.producersOf group.name) := by
  apply WellStates.midway_step
  · intro p _ different
    have same := e.state_visit_other setting time w different
    rw [started] at same
    exact WellStates.produced_congr same
  · intro p member self
    have outside := pending.not_later member self
    have same := state_visitAll_other setting time rest middle outside
    rw [later] at same
    exact ⟨fun listed => outside (among listed), WellStates.produced_congr same⟩

/-- What a pass makes of the producers of the group: each is cut as the group would have to be cut
when it is visited, after the cuts made before. -/
theorem produced_visitAll {es : List (Evaluator ℚ)}
    (pending : Pending setting group mode t target es w)
    (passed : visitAll setting time es w = (.ok report, after)) :
    (∀ p ∈ setting.schedule.producersOf group.name, 0 < after.states.produced mode t p.name) ∧
    ∀ visited e rest, es = visited ++ e :: rest →
      ∀ p ∈ setting.schedule.producersOf group.name, e.name = p.name →
        w.states.CutAfter after.states mode t target (setting.schedule.producersOf group.name)
          (visited.map Evaluator.name) p := by
  induction es generalizing w report with
  | nil =>
    cases passed
    exact ⟨pending.flowing, fun visited e rest split =>
      absurd split.symm (List.append_ne_nil_of_right_ne_nil _ (List.cons_ne_nil _ _))⟩
  | cons e' others ih =>
    obtain ⟨first, middle, more, started, later, _⟩ := visitAll_cons_ok passed
    obtain ⟨flowing, cuts⟩ := ih (pending.visit started) later
    refine ⟨flowing, ?_⟩
    intro visited e rest split p member self
    cases visited with
    | nil =>
      obtain ⟨rfl, rfl⟩ := List.cons.inj split
      have same := state_visitAll_other setting time others middle
        (pending.not_later member self.symm)
      rw [later] at same
      rw [WellStates.CutAfter, WellStates.produced_congr same, List.map_nil,
        WellStates.midway_nil, pending.produced_first started member self]
    | cons e'' visited =>
      obtain ⟨rfl, tail_eq⟩ := List.cons.inj split
      have split' : others = visited ++ e :: rest := tail_eq
      have listed : p.name ∈ others.map Evaluator.name := by
        rw [split', ← self]
        exact List.mem_map_of_mem (List.mem_append_right visited List.mem_cons_self)
      have different : p.name ≠ e'.name := fun same => pending.not_later member same listed
      have among : visited.map Evaluator.name ⊆ others.map Evaluator.name := by
        rw [split', List.map_append]
        exact List.subset_append_left _ _
      have same := e'.state_visit_other setting time w different
      rw [started] at same
      have cut := cuts visited e rest split' p member self
      rw [WellStates.CutAfter, midway_visit pending started later among,
        WellStates.produced_congr same] at cut
      exact cut

end Run

/-- What producers produce together, each for its share of the time. -/
def WellStates.operating (states : WellStates ℚ) (mode : GroupProductionMode) (t : PhaseTable)
    (producers : List (Producer ℚ)) : ℚ :=
  (producers.map fun w => w.efficiency.val * states.produced mode t w.name).sum

section Totals
variable {before after : WellStates ℚ} {producers : List (Producer ℚ)}

theorem WellStates.total_le_midway (visited : List String)
    (reduced : ∀ v ∈ producers, after.produced mode t v.name ≤ before.produced mode t v.name) :
    after.total mode t producers ≤ before.midway after mode t visited producers := by
  apply List.sum_le_sum
  intro v member
  split_ifs
  · exact le_refl _
  · exact reduced v member

theorem WellStates.midway_of_kept (visited : List String)
    (kept : ∀ v ∈ producers, v.name ∈ visited →
      after.produced mode t v.name = before.produced mode t v.name) :
    before.midway after mode t visited producers = before.total mode t producers := by
  rw [midway, total]
  congr 1
  apply List.map_congr_left
  intro v member
  split_ifs with listed
  · exact kept v member listed
  · rfl

/-- A rate cut to its share of a total is within the target's share of it. -/
theorem weighted_cut_le (target : ℚ) {efficiency rate total : ℚ} (operating : 0 < efficiency)
    (flowing : 0 < rate) (totalFlowing : 0 < total) :
    efficiency * (rate * min 1 (target / (efficiency * total))) * total ≤ target * rate := by
  have weighted : 0 < efficiency * total := mul_pos operating totalFlowing
  calc efficiency * (rate * min 1 (target / (efficiency * total))) * total
      = rate * (min 1 (target / (efficiency * total)) * (efficiency * total)) := by ring
    _ ≤ rate * target := by
      apply mul_le_mul_of_nonneg_left _ flowing.le
      rw [← le_div_iff₀ weighted]
      exact min_le_right _ _
    _ = target * rate := mul_comm rate target

theorem WellStates.operating_mul_le {total : ℚ}
    (each : ∀ v ∈ producers, v.efficiency.val * after.produced mode t v.name * total ≤
      target * before.produced mode t v.name) :
    after.operating mode t producers * total ≤ target * before.total mode t producers := by
  rw [operating, WellStates.total, ← List.sum_map_mul_right, ← List.sum_map_mul_left]
  exact List.sum_le_sum each

/-- However the cuts follow one another, the group ends as far above its target at most as it is
below its former total. -/
theorem WellStates.operating_mul_total_le
    (flowing : ∀ v ∈ producers, 0 < before.produced mode t v.name)
    (flowingAfter : ∀ v ∈ producers, 0 < after.produced mode t v.name)
    (cuts : ∀ v ∈ producers, ∃ visited, before.CutAfter after mode t target producers visited v) :
    after.operating mode t producers * after.total mode t producers ≤
      target * before.total mode t producers := by
  have reduced : ∀ v ∈ producers, after.produced mode t v.name ≤ before.produced mode t v.name := by
    intro v member
    obtain ⟨visited, cut⟩ := cuts v member
    rw [cut]
    exact mul_le_of_le_one_right (flowing v member).le (min_le_left _ _)
  apply WellStates.operating_mul_le
  intro v member
  obtain ⟨visited, cut⟩ := cuts v member
  have total_le := WellStates.total_le_midway visited reduced
  have midway_pos := (WellStates.total_pos after flowingAfter member).trans_le total_le
  have rate_nonneg := (mul_pos v.efficiency.2.1 (flowingAfter v member)).le
  calc v.efficiency.val * after.produced mode t v.name * after.total mode t producers
      ≤ v.efficiency.val * after.produced mode t v.name *
          before.midway after mode t visited producers :=
        mul_le_mul_of_nonneg_left total_le rate_nonneg
    _ ≤ target * before.produced mode t v.name := by
      rw [cut]
      exact weighted_cut_le target v.efficiency.2.1 (flowing v member) midway_pos

/-- If no producer follows one that was cut, the group ends within its target. -/
theorem WellStates.operating_le_of_kept (positive : 0 < target)
    (flowing : ∀ v ∈ producers, 0 < before.produced mode t v.name)
    (cuts : ∀ v ∈ producers, ∃ visited, before.CutAfter after mode t target producers visited v ∧
      ∀ u ∈ producers, u.name ∈ visited →
        after.produced mode t u.name = before.produced mode t u.name) :
    after.operating mode t producers ≤ target := by
  cases producers with
  | nil => exact positive.le
  | cons first others =>
    have total_pos := WellStates.total_pos before flowing List.mem_cons_self
    refine le_of_mul_le_mul_right (WellStates.operating_mul_le ?_) total_pos
    intro v member
    obtain ⟨visited, cut, kept⟩ := cuts v member
    rw [WellStates.CutAfter, WellStates.midway_of_kept visited kept] at cut
    rw [cut]
    exact weighted_cut_le target v.efficiency.2.1 (flowing v member) total_pos

end Totals

structure SharedPass (config : Config ℚ) (setting : Setting ℚ) (group : WellGroup ℚ)
    (mode : GroupProductionMode) (t : PhaseTable) (target : ℚ) (es : List (Evaluator ℚ))
    (w : World ℚ) : Prop where
  has : setting.HasTarget group mode target
  once : ∀ p ∈ setting.schedule.producersOf group.name, (es.map Evaluator.name).count p.name = 1
  asks : ∀ e ∈ es, ∀ p ∈ setting.schedule.producersOf group.name, e.name = p.name →
    e.AsksFor p setting group t
  free : ∀ p ∈ setting.schedule.producersOf group.name, p.Free mode t config.constants w.states

/-- After a pass each producer has what it had, times the factor by which the group was above its
target when the producer was visited.  Together they are at most as far above the target as they
were below their former total, and within the target if none was visited after another was cut. -/
theorem evaluateStep_cuts_in_turn {config : Config ℚ} {es : List (Evaluator ℚ)} {w after : World ℚ}
    {report : StepReport} (pass : SharedPass config setting group mode t target es w)
    (passed : evaluateStep config setting time es w = (.ok report, after)) :
    (∀ visited e rest, es = visited ++ e :: rest →
      ∀ p ∈ setting.schedule.producersOf group.name, e.name = p.name →
        w.states.CutAfter after.states mode t target (setting.schedule.producersOf group.name)
          (visited.map Evaluator.name) p) ∧
    after.states.operating mode t (setting.schedule.producersOf group.name) *
        after.states.total mode t (setting.schedule.producersOf group.name) ≤
      target * w.states.total mode t (setting.schedule.producersOf group.name) ∧
    ((∀ visited e rest, es = visited ++ e :: rest →
      ∀ p ∈ setting.schedule.producersOf group.name, e.name = p.name →
        ∀ v ∈ setting.schedule.producersOf group.name, v.name ∈ visited.map Evaluator.name →
          after.states.produced mode t v.name = w.states.produced mode t v.name) →
      after.states.operating mode t (setting.schedule.producersOf group.name) ≤ target) := by
  simp only [evaluateStep, World.within, Prod.mk.injEq] at passed
  obtain ⟨outcome, rfl⟩ := passed
  let start : World ℚ := { w with constants := config.constants }
  have ran : visitAll setting time es start = (.ok report, (visitAll setting time es start).2) :=
    Prod.ext outcome rfl
  have flowing : ∀ v ∈ setting.schedule.producersOf group.name,
      0 < w.states.produced mode t v.name := by
    intro v member
    exact lt_of_le_of_lt config.constants.rateEpsilon.2 (pass.free v member).above
  have pending : Pending setting group mode t target es start :=
    ⟨pass.has, fun p member => (pass.once p member).le, pass.asks, flowing,
      fun p member _ => pass.free p member⟩
  obtain ⟨flowing_after, cuts⟩ := produced_visitAll pending ran
  have visit_of : ∀ p ∈ setting.schedule.producersOf group.name,
      ∃ visited e rest, es = visited ++ e :: rest ∧ e.name = p.name := by
    intro p member
    have listed : p.name ∈ es.map Evaluator.name := by
      rw [← List.count_pos_iff, pass.once p member]
      exact Nat.one_pos
    obtain ⟨e, among, self⟩ := List.mem_map.1 listed
    obtain ⟨visited, rest, split⟩ := List.append_of_mem among
    exact ⟨visited, e, rest, split, self⟩
  refine ⟨cuts, WellStates.operating_mul_total_le flowing flowing_after fun p member => ?_,
    fun kept => WellStates.operating_le_of_kept pass.has.positive flowing fun p member => ?_⟩
  · obtain ⟨visited, e, rest, split, self⟩ := visit_of p member
    exact ⟨_, cuts visited e rest split p member self⟩
  · obtain ⟨visited, e, rest, split, self⟩ := visit_of p member
    exact ⟨_, cuts visited e rest split p member self, kept visited e rest split p member self⟩

section Pair

def pairGroup : WellGroup ℚ :=
  ⟨"G", none, some ⟨.orat, some ⟨100, by decide⟩, none, none, none, none⟩, .empty⟩

def pairProducers : List (Producer ℚ) := [.plain "P" "G", .plain "Q" "G"]

def pairStates : List (WellState ℚ) :=
  [.flowing "P" (0, -100, 0) [], .flowing "Q" (0, -100, 0) []]

def pairSetting : Setting ℚ := .ofGroup pairGroup pairProducers

def pairEvaluators : List (Evaluator ℚ) := pairProducers.map fun w => .plain (.producer w)

def pairAfter : World ℚ :=
  (evaluateStep .standard pairSetting 0 pairEvaluators (.ofStates pairStates)).2

theorem pair_producersOf : pairSetting.schedule.producersOf pairGroup.name = pairProducers := by
  rfl

theorem pair_sharedPass :
    SharedPass .standard pairSetting pairGroup .orat .blackOil 100 pairEvaluators
      (.ofStates pairStates) where
  has := ⟨⟨_, rfl, rfl, rfl⟩, rfl, by decide, by rfl⟩
  once := by
    rw [pair_producersOf]
    intro p member
    rcases List.mem_pair.1 member with rfl | rfl
    · decide
    · decide
  asks := by
    rw [pair_producersOf]
    intro e listed p member self
    rcases List.mem_pair.1 listed with rfl | rfl <;> rcases List.mem_pair.1 member with rfl | rfl
    · exact ⟨rfl, rfl, rfl, rfl, rfl⟩
    · exact absurd self (by decide)
    · exact absurd self (by decide)
    · exact ⟨rfl, rfl, rfl, rfl, rfl⟩
  free := by
    rw [pair_producersOf]
    intro p member
    rcases List.mem_pair.1 member with rfl | rfl
    · exact ⟨by decide, by rintro s ⟨⟩; decide, by decide +kernel⟩
    · exact ⟨by decide, by rintro s ⟨⟩; decide, by decide +kernel⟩

theorem pair_passed : evaluateStep .standard pairSetting 0 pairEvaluators (.ofStates pairStates) =
    (.ok ⟨["P", "Q"], [], []⟩, pairAfter) :=
  Prod.ext (by decide +kernel) rfl

/-- The first well is cut to 50, the second to two thirds of what it had. -/
theorem pair_cuts_in_turn :
    (∀ visited e rest, pairEvaluators = visited ++ e :: rest →
      ∀ p ∈ pairSetting.schedule.producersOf pairGroup.name, e.name = p.name →
        (World.ofStates pairStates).states.CutAfter pairAfter.states .orat .blackOil 100
          (pairSetting.schedule.producersOf pairGroup.name) (visited.map Evaluator.name) p) ∧
    pairAfter.states.operating .orat .blackOil
        (pairSetting.schedule.producersOf pairGroup.name) *
        pairAfter.states.total .orat .blackOil
          (pairSetting.schedule.producersOf pairGroup.name) ≤
      100 * (World.ofStates pairStates).states.total .orat .blackOil
        (pairSetting.schedule.producersOf pairGroup.name) :=
  have cuts := evaluateStep_cuts_in_turn pair_sharedPass pair_passed
  ⟨cuts.1, cuts.2.1⟩

/-- The pass brings the group to 116 and two thirds, not to 100. -/
theorem pair_stays_above_target :
    SharedPass .standard pairSetting pairGroup .orat .blackOil 100 pairEvaluators
      (.ofStates pairStates) ∧
    (∀ s ∈ pairStates, ∀ x ∈ s.surface, x ≤ 0) ∧
    evaluateStep .standard pairSetting 0 pairEvaluators (.ofStates pairStates) =
      (.ok ⟨["P", "Q"], [], []⟩, pairAfter) ∧
    pairAfter.states.operating .orat .blackOil pairProducers = 350 / 3 ∧
    ¬ pairAfter.states.operating .orat .blackOil
        (pairSetting.schedule.producersOf pairGroup.name) ≤ 100 :=
  ⟨pair_sharedPass, by decide +kernel, pair_passed, by decide +kernel, by decide +kernel⟩

end Pair
end WellControl
