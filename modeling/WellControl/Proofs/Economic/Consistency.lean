import Mathlib.Algebra.BigOperators.Ring.List
import Mathlib.Algebra.Order.Field.Basic
import Mathlib.Tactic.Linarith
import WellControl.Proofs.Economic.Calls
import WellControl.Proofs.Economic.Mediant
import WellControl.Proofs.Plain

/-! # Ratio checks of consistent data

Where the surface rates of a producer follow from the rates of its connections, a limit that the
well exceeds is exceeded by one of its completions.  A ratio check that finds the well above a limit
then always has a completion to name, and each limit leaves the report sound
(`RatioSource.checkLimit_spec`). -/
set_option autoImplicit false

namespace WellControl

structure RatioSource.Consistent (r : RatioSource ℚ) : Prop where
  serial : r.ownership = .serial
  numbered : ∀ c ∈ r.well.connections, ∀ n, c.completion = some n → n.val ≠ noCompletion
  rows : r.HasRows
  producing : ∀ x ∈ r.state.perforationRates.entries, x ≤ 0
  /-- All surface rates may have been cut by one factor since. -/
  surface : ∃ factor : ℚ, 0 < factor ∧ r.state.surface = List.ofFn fun j : Fin r.table.size =>
    factor * (r.well.connections.map fun c => r.state.perforationRates.cell c.index j).sum

/-- The ratio limits that are on can be checked, and are below the ratio of a rate to none. -/
def EconomicLimits.Checkable (l : EconomicLimits ℚ) (c : Constants ℚ) (t : PhaseTable) : Prop :=
  ∀ (k : RatioKind) (limit : NonNegative ℚ), EconomicLimits.active? (k.limit l) = some limit →
    (t.has k.phases.1 && t.has k.phases.2) = true ∧ limit.val < c.ratioSentinel.val

theorem completionId_ne_noCompletion {c : Connection}
    (numbered : ∀ n, c.completion = some n → n.val ≠ noCompletion) :
    c.completionId ≠ noCompletion := by
  unfold Connection.completionId
  split
  · rename_i n chosen
    exact numbered n chosen
  · unfold noCompletion
    omega

namespace RatioSource
variable {r : RatioSource ℚ} {l : EconomicLimits ℚ}

/-- The highest ratio is reached, by a completion or at the start, and not surpassed. -/
theorem highest_spec (serial : r.ownership = .serial) (k : RatioKind) {value : List Nat → ℚ}
    {completions : List (Int × List Nat)}
    (computed : ∀ e ∈ completions,
      r.ownRates e.2 >>= k.ratio r.constants r.table = .ok (value e.2))
    (n : Nat) (best : Highest ℚ) :
    ∃ found, r.highest k completions n best = (.ok found, n + completions.length) ∧
      best.ratio ≤ found.ratio ∧ (∀ e ∈ completions, value e.2 ≤ found.ratio) ∧
      (found = best ∨ ∃ e ∈ completions, found = ⟨e.1, value e.2⟩) := by
  induction completions generalizing n best with
  | nil => exact ⟨best, rfl, le_refl _, fun e listed => absurd listed List.not_mem_nil, .inl rfl⟩
  | cons completion rest ih =>
    obtain ⟨id, connections⟩ := completion
    obtain ⟨rates, own, ratio_eq⟩ :=
      Outcome.bind_eq_ok.1 (computed (id, connections) List.mem_cons_self)
    have reduced : r.ownership.reduce n rates = .ok rates := by
      rw [serial]
      rfl
    let x := value connections
    let next : Highest ℚ := if best.ratio < x then ⟨id, x⟩ else best
    have best_le : best.ratio ≤ next.ratio := by
      by_cases higher : best.ratio < x
      · simp only [next, if_pos higher, higher.le]
      · simp only [next, if_neg higher, le_refl]
    have x_le : x ≤ next.ratio := by
      by_cases higher : best.ratio < x
      · simp only [next, if_pos higher, le_refl]
      · simp only [next, if_neg higher]
        exact not_lt.1 higher
    obtain ⟨found, scanned, above, aboveAll, reached⟩ :=
      ih (fun e later => computed e (List.mem_cons_of_mem _ later)) (n + 1) next
    refine ⟨found, ?_, best_le.trans above, ?_, ?_⟩
    · simp only [highest, own, reduced, Outcome.ok_bind, ratio_eq]
      rw [List.length_cons, Nat.add_comm rest.length 1, ← Nat.add_assoc]
      exact scanned
    · intro e listed
      rcases List.mem_cons.1 listed with rfl | later
      · exact x_le.trans above
      · exact aboveAll e later
    · rcases reached with rfl | ⟨e, later, rfl⟩
      · by_cases higher : best.ratio < x
        · right
          exact ⟨(id, connections), List.mem_cons_self, if_pos higher⟩
        · left
          exact if_neg higher
      · exact .inr ⟨e, List.mem_cons_of_mem _ later, rfl⟩

theorem enter_spec (report : RatioReport ℚ) {limit : ℚ} {best : Highest ℚ} (positive : 0 < limit)
    (above : limit < best.ratio) (named : best.completion ≠ noCompletion) :
    ∃ entered, enter report limit best = .ok entered ∧ entered.violated = report.violated ∧
      1 < entered.extent ∧ (entered.worst = best.completion ∨ entered = report) := by
  have beyond : 1 < best.ratio / limit := (one_lt_div positive).2 above
  rw [enter, if_pos ⟨above, named, beyond⟩]
  by_cases further : report.extent < best.ratio / limit
  · rw [if_pos further]
    exact ⟨_, rfl, rfl, beyond, .inl rfl⟩
  · rw [if_neg further]
    exact ⟨report, rfl, rfl, beyond.trans_le (not_lt.1 further), .inr rfl⟩

theorem wellOutcome_eq_ok {k : RatioKind} {limit : NonNegative ℚ} {x : ℚ}
    (active : EconomicLimits.active? (k.limit l) = some limit)
    (computed : k.ratio r.constants r.table r.state.surface = .ok x) :
    r.wellOutcome l k = .ok () := by
  have compared : r.state.exceeds k r.constants r.table limit.val = .ok (decide (limit.val < x)) :=
    state_exceeds_eq_ok.2 ⟨x, computed, rfl⟩
  simp only [wellOutcome, RatioKind.has_phases_of_ratio_eq_ok computed, active, compared]

namespace Consistent

theorem cell_nonpos (consistent : r.Consistent) (i j : Nat) :
    r.state.perforationRates.cell i j ≤ 0 := by
  rcases r.state.perforationRates.cell_eq_zero_or_mem i j with none | listed
  · exact none.le
  · exact consistent.producing _ listed

theorem ownSum_eq (consistent : r.Consistent) (connections : List Nat) (j : Nat) :
    r.ownSum connections j =
      (connections.map fun i => r.state.perforationRates.cell i j).sum := by
  have all : (connections.filter fun (i : Nat) => r.ownership.isOwner i) = connections := by
    rw [consistent.serial]
    exact List.filter_eq_self.2 fun _ _ => rfl
  rw [ownSum, all, Scalar.sum_eq]

theorem ownSum_nonpos (consistent : r.Consistent) (connections : List Nat) (j : Nat) :
    r.ownSum connections j ≤ 0 := by
  rw [consistent.ownSum_eq]
  exact Scalar.sum_map_nonpos fun i _ => consistent.cell_nonpos i j

/-- The surface rates are those of the completions, added up and scaled. -/
theorem surface_eq (consistent : r.Consistent) :
    ∃ factor : ℚ, 0 < factor ∧ r.state.surface = List.ofFn fun j : Fin r.table.size =>
      factor * (r.well.completions.map fun e => r.ownSum e.2 j).sum := by
  obtain ⟨factor, positive, surface⟩ := consistent.surface
  refine ⟨factor, positive, ?_⟩
  simp only [consistent.ownSum_eq]
  rw [surface]
  congr 1
  funext j
  rw [WellHeader.completions,
    sum_completionsOf r.well.connections fun i => r.state.perforationRates.cell i j]

/-- A well above a limit has a completion above it. -/
theorem ratios (consistent : r.Consistent) {k : RatioKind} {limit : NonNegative ℚ}
    (active : (r.table.has k.phases.1 && r.table.has k.phases.2) = true) (positive : 0 < limit.val)
    (bounded : limit.val < r.constants.ratioSentinel.val) :
    ∃ (x : ℚ) (value : List Nat → ℚ),
      k.ratio r.constants r.table r.state.surface = .ok x ∧
      (∀ e ∈ r.well.completions,
        r.ownRates e.2 >>= k.ratio r.constants r.table = .ok (value e.2)) ∧
      (limit.val < x → ∃ e ∈ r.well.completions, limit.val < value e.2) := by
  obtain ⟨i, j, ratio_eq⟩ := RatioKind.exists_ratio_ofFn active
  obtain ⟨factor, scaled, surface⟩ := consistent.surface_eq
  let together (m : Nat) : ℚ := factor * (r.well.completions.map fun e => r.ownSum e.2 m).sum
  refine ⟨k.value r.constants (together i) (together j), fun connections =>
    k.value r.constants (r.ownSum connections i) (r.ownSum connections j), ?_, ?_, ?_⟩
  · rw [surface]
    refine ratio_eq _ _ fun m => mul_nonpos_of_nonneg_of_nonpos scaled.le ?_
    exact Scalar.sum_map_nonpos fun e _ => consistent.ownSum_nonpos e.2 m
  · intro e completion
    rw [ownRates_eq consistent.rows (completion_lt_rowsNeeded completion), Outcome.ok_bind]
    exact ratio_eq _ _ fun m => consistent.ownSum_nonpos e.2 m
  · intro above
    exact k.exists_lt_value (fun e _ => consistent.ownSum_nonpos e.2 i)
      (fun e _ => consistent.ownSum_nonpos e.2 j) scaled positive bounded above

end Consistent

structure Sound (r : RatioSource ℚ) (report : RatioReport ℚ) : Prop where
  named : 1 < report.extent → report.worst ∈ r.well.completions.map Prod.fst
  beyond : report.violated = true → 1 < report.extent

theorem completion_ne_noCompletion (consistent : r.Consistent) {id : Int} {connections : List Nat}
    (completion : (id, connections) ∈ r.well.completions) : id ≠ noCompletion := by
  obtain ⟨⟨c, listed, rfl⟩, _⟩ := mem_completionsOf.1 completion
  exact completionId_ne_noCompletion (consistent.numbered c listed)

/-- Comparing the completions with a limit that one of them is above. -/
theorem checkCompletions_spec (consistent : r.Consistent) {k : RatioKind} {limit : ℚ}
    {value : List Nat → ℚ}
    (computed : ∀ e ∈ r.well.completions,
      r.ownRates e.2 >>= k.ratio r.constants r.table = .ok (value e.2))
    (positive : 0 < limit) (above : ∃ e ∈ r.well.completions, limit < value e.2)
    (report : RatioReport ℚ)
    (named : 1 < report.extent → report.worst ∈ r.well.completions.map Prod.fst) (n : Nat) :
    ∃ p', r.checkCompletions k limit ⟨report, n⟩ = (.ok (), p') ∧
      r.Sound p'.report ∧ p'.report.violated = report.violated := by
  obtain ⟨found, scanned, _, aboveAll, reached⟩ :=
    highest_spec consistent.serial k computed n ⟨noCompletion, 0⟩
  obtain ⟨e, completion, higher⟩ := above
  have found_above : limit < found.ratio := higher.trans_le (aboveAll e completion)
  obtain ⟨e', completion', rfl⟩ : ∃ e' ∈ r.well.completions, found = ⟨e'.1, value e'.2⟩ := by
    rcases reached with rfl | other
    · exact absurd found_above (not_lt.2 positive.le)
    · exact other
  obtain ⟨entered, entered_eq, violated, extent, worst⟩ := enter_spec report positive
    found_above (completion_ne_noCompletion consistent completion')
  refine ⟨⟨entered, n + r.well.completions.length⟩, ?_, ⟨fun _ => ?_, fun _ => extent⟩, violated⟩
  · rw [checkCompletions, if_neg consistent.rows.shape_ne, if_neg consistent.rows.not_missing,
      scanned]
    simp only [entered_eq]
  · rcases worst with same | rfl
    · rw [same]
      exact List.mem_map.2 ⟨e', completion', rfl⟩
    · exact named extent

/-- One limit: the check goes through, and keeps the report sound. -/
theorem checkLimit_spec (consistent : r.Consistent)
    (checkable : l.Checkable r.constants r.table) {k : RatioKind}
    (on : EconomicLimits.isOn (k.limit l) = true) {p : RatioProgress ℚ}
    (sound : r.Sound p.report) :
    ∃ p', r.checkLimit k (k.limit l) p = (.ok (), p') ∧ r.Sound p'.report ∧
      p'.report.violated = (p.report.violated || r.exceeds l k) := by
  obtain ⟨limit, active⟩ := Option.isSome_iff_exists.1 on
  have positive : 0 < limit.val := of_decide_eq_true (Option.filter_eq_some_iff.1 active).2
  obtain ⟨phases, bounded⟩ := checkable k limit active
  obtain ⟨x, value, whole, computed, mediant⟩ := consistent.ratios phases positive bounded
  cases above : r.exceeds l k with
  | false =>
    rw [checkLimit_of_not_exceeds above, wellOutcome_eq_ok active whole, Bool.or_false]
    exact ⟨p, rfl, sound, rfl⟩
  | true =>
    obtain ⟨limit', x', active', whole', higher⟩ := exceeds_eq_true_iff.1 above
    cases Option.some.inj (active.symm.trans active')
    cases Except.ok.inj (whole.symm.trans whole')
    rw [checkLimit_of_exceeds active above, Bool.or_true]
    exact checkCompletions_spec consistent computed positive (mediant higher)
      { p.report with violated := true } sound.named _

theorem checkLimits_spec (consistent : r.Consistent)
    (checkable : l.Checkable r.constants r.table) (kinds : List RatioKind) {p : RatioProgress ℚ}
    (sound : r.Sound p.report) :
    ∃ p', r.checkLimits l kinds p = (.ok (), p') ∧ r.Sound p'.report ∧
      p'.report.violated = (p.report.violated || kinds.any (r.exceeds l)) := by
  induction kinds generalizing p with
  | nil => exact ⟨p, rfl, sound, (Bool.or_false _).symm⟩
  | cons k rest ih =>
    by_cases on : EconomicLimits.isOn (k.limit l) = true
    · obtain ⟨p', checked, sound', violated'⟩ := checkLimit_spec consistent checkable on sound
      obtain ⟨p'', checked', sound'', violated''⟩ := ih sound'
      refine ⟨p'', ?_, sound'', ?_⟩
      · simp only [checkLimits, if_pos on, checked, checked']
      · rw [violated'', violated', List.any_cons, Bool.or_assoc]
    · obtain ⟨p', checked, sound', violated'⟩ := ih sound
      refine ⟨p', ?_, sound', ?_⟩
      · simp only [checkLimits, if_neg on, checked]
      · rw [violated', List.any_cons, r.exceeds_eq_false_of_off l k on, Bool.false_or]

theorem sound_fresh (r : RatioSource ℚ) : r.Sound .fresh where
  named beyond := absurd beyond (by decide +kernel)
  beyond violated := by cases violated

/-- On consistent data a ratio check never fails, and if the well exceeds a limit the report names a
completion that is above one. -/
theorem checkRatios_of_consistent (consistent : r.Consistent)
    (checkable : l.Checkable r.constants r.table) (n : Nat) :
    (r.checkRatios l ⟨.fresh, n⟩).1 = .ok () ∧
    ((∃ k, r.exceeds l k = true) →
      (r.checkRatios l ⟨.fresh, n⟩).2.1.report.violated = true ∧
      (r.checkRatios l ⟨.fresh, n⟩).2.1.report.worst ∈ r.well.completions.map Prod.fst ∧
      1 < (r.checkRatios l ⟨.fresh, n⟩).2.1.report.extent) := by
  obtain ⟨p, checked, sound, violated⟩ := checkLimits_spec consistent checkable
    RatioKind.checkingOrder (p := ⟨.fresh, n⟩) r.sound_fresh
  have met : ¬ (p.report.violated = true ∧
      ¬ (p.report.worst ≠ noCompletion ∧ 1 < p.report.extent)) := by
    rintro ⟨found, missing⟩
    have beyond := sound.beyond found
    obtain ⟨⟨id, connections⟩, completion, worst⟩ := List.mem_map.1 (sound.named beyond)
    apply missing
    rw [← worst]
    exact ⟨completion_ne_noCompletion consistent completion, beyond⟩
  simp only [checkRatios, checked, if_neg met, true_and]
  rintro ⟨k, above⟩
  have ordered : k ∈ RatioKind.checkingOrder := by cases k <;> decide
  have found : p.report.violated = true := by
    rw [violated]
    exact Bool.or_eq_true_iff.2 (.inr (List.any_eq_true.2 ⟨k, ordered, above⟩))
  exact ⟨found, sound.named (sound.beyond found), sound.beyond found⟩

section Halved

/-- A well of two completions whose rates have been cut in half since. -/
def halvedSource : RatioSource ℚ where
  well := { WellHeader.plain "P" "G" with
    connections := twoConnections
    distinct := twoConnections_distinct }
  state := .flowing "P" (-30, -20, 0) [(-50, -10, 0), (-10, -30, 0)]
  table := .blackOil
  ownership := .serial
  constants := .standard

theorem halved_consistent : halvedSource.Consistent where
  serial := rfl
  numbered := by
    intro c listed n chosen
    rcases List.mem_pair.1 listed with rfl | rfl
    · cases chosen
      decide
    · cases chosen
  rows := ⟨2, rfl, by decide⟩
  producing := by decide +kernel
  surface := ⟨1 / 2, by decide +kernel, by decide +kernel⟩

theorem halved_checkable :
    EconomicLimits.halfWater.Checkable halvedSource.constants halvedSource.table := by
  intro k limit active
  obtain ⟨set, _⟩ := Option.filter_eq_some_iff.1 active
  cases k with
  | waterCut =>
    cases set
    exact ⟨by decide, by decide +kernel⟩
  | gasOil => cases set
  | waterGas => cases set

theorem halved_checkRatios :
    halvedSource.exceeds .halfWater .waterCut = true ∧
      (halvedSource.checkRatios .halfWater ⟨.fresh, 0⟩).1 = .ok () ∧
      ((∃ k, halvedSource.exceeds .halfWater k = true) →
        (halvedSource.checkRatios .halfWater ⟨.fresh, 0⟩).2.1.report.violated = true ∧
        (halvedSource.checkRatios .halfWater ⟨.fresh, 0⟩).2.1.report.worst ∈
          halvedSource.well.completions.map Prod.fst ∧
        1 < (halvedSource.checkRatios .halfWater ⟨.fresh, 0⟩).2.1.report.extent) :=
  ⟨by decide +kernel, checkRatios_of_consistent halved_consistent halved_checkable 0⟩

end Halved

end RatioSource
end WellControl
