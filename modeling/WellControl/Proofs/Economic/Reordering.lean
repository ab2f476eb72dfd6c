import WellControl.Economic.Review
import WellControl.Proofs.Control.Reordering
import WellControl.Proofs.Grid.Rows

/-! # Economic reviews with phases in another order

A review of related states comes to the same verdict with the same notices, so an update of the
books writes down the same. -/
set_option autoImplicit false

namespace WellControl
open PhaseTable

variable {t t' : PhaseTable}

section Rates
variable {xs ys : List ℚ}

theorem rate_nil_eq (perm : t.active.Perm t'.active) :
    t'.rate ([] : List ℚ) = t.rate ([] : List ℚ) := by
  funext p
  have positioned := position_alike (perm.mem_iff (a := p))
  unfold PhaseTable.rate
  generalize (t.position p : Outcome ℚ Nat) = x, (t'.position p : Outcome ℚ Nat) = y at positioned
  cases positioned <;> rfl

/-- What potentials are read is the same, also where there are none. -/
theorem WellState.Reordered.rate_potential {s s' : WellState ℚ} (same : s.Reordered t t' s')
    (perm : t.active.Perm t'.active) : t'.rate s'.potential = t.rate s.potential := by
  have potentials := same.potentials
  unfold potential
  generalize s.potentials = g, s'.potentials = g' at potentials
  cases potentials with
  | none => exact rate_nil_eq perm
  | some rates => exact rates.line.rate perm

theorem EconomicLimits.checkRates_eq (perm : t.active.Perm t'.active)
    (read : t'.rate ys = t.rate xs) (l : EconomicLimits ℚ) :
    l.checkRates t' ys = l.checkRates t xs := by
  have below : ∀ limit phases,
      belowMinimum limit phases t' ys = belowMinimum limit phases t xs := by
    intro limit phases
    simp only [belowMinimum, has_eq perm, read]
  simp only [checkRates, below]

theorem RatioKind.ratio_eq_of_rate (read : t'.rate ys = t.rate xs) (k : RatioKind)
    (c : Constants ℚ) : k.ratio c t' ys = k.ratio c t xs := by
  simp only [ratio, read]

end Rates

namespace RatioSource
variable {r r' : RatioSource ℚ} {k : RatioKind}

structure Reordered (t t' : PhaseTable) (r r' : RatioSource ℚ) : Prop where
  well : r'.well = r.well
  state : r.state.Reordered t t' r'.state
  table : r.table = t
  table' : r'.table = t'
  owned : r'.ownership.owned = r.ownership.owned
  serial : ∀ n rates, r.ownership.reduce n rates = .ok rates
  serial' : ∀ n rates, r'.ownership.reduce n rates = .ok rates
  constants : r'.constants = r.constants

namespace Reordered

/-- The rows that are added up for a completion hold the same rates, or are missing alike. -/
theorem ownRates_alike (same : r.Reordered t t' r') (connections : List Nat) :
    Outcome.Alike (PhaseTable.SameRates t t') (r.ownRates connections)
      (r'.ownRates connections) := by
  have owners : r'.ownership.isOwner = r.ownership.isOwner := by
    funext i
    rw [Ownership.isOwner, Ownership.isOwner, same.owned]
  obtain ⟨rows, shape, shape'⟩ := same.state.perforations.shapes
  unfold ownRates
  rw [owners, same.table, same.table']
  refine .foldlM ?_ _ (sameRates_zeros t t')
  intro sum sum' i sums
  by_cases inside : i < rows
  · obtain ⟨part, found, partShape⟩ := Grid.exists_part? shape inside
    obtain ⟨part', found', partShape'⟩ := Grid.exists_part? shape' inside
    have row := same.state.perforations.row i part part' found found'
    rw [found, found']
    simp only [Rates.addPart, partShape, partShape', List.length_singleton, Nat.le_refl, if_true]
    rw [Rates.add_of_length_eq (sums.fits.trans row.fits.symm),
      Rates.add_of_length_eq (sums.fits'.trans row.fits'.symm)]
    exact .ok (sums.zipWith row (add_zero 0))
  · rw [Grid.part?_eq_none shape inside, Grid.part?_eq_none shape' inside]
    exact .error _

theorem highest_eq (same : r.Reordered t t' r') (perm : t.active.Perm t'.active)
    (completions : List (Int × List Nat)) (n : Nat) (best : Highest ℚ) :
    r'.highest k completions n best = r.highest k completions n best := by
  induction completions generalizing n best with
  | nil => rfl
  | cons completion rest ih =>
    obtain ⟨id, connections⟩ := completion
    have own := same.ownRates_alike connections
    simp only [highest]
    generalize r.ownRates connections = x, r'.ownRates connections = y at own
    cases own with
    | error f => rfl
    | ok rates =>
      simp only [same.serial, same.serial', Outcome.ok_bind, same.table, same.table',
        same.constants, RatioKind.ratio_eq_of_rate (rates.rate perm), ih]

theorem checkCompletions_eq (same : r.Reordered t t' r') (perm : t.active.Perm t'.active)
    (limit : ℚ) (p : RatioProgress ℚ) :
    r'.checkCompletions k limit p = r.checkCompletions k limit p := by
  obtain ⟨rows, shape, shape'⟩ := same.state.perforations.shapes
  have needed : r'.rowsNeeded = r.rowsNeeded := by
    rw [rowsNeeded, rowsNeeded, same.well]
  simp only [checkCompletions, Grid.extent, shape, shape', List.headD_cons, needed, same.well,
    same.highest_eq perm, reduceCtorEq, if_false]

theorem checkLimit_eq (same : r.Reordered t t' r') (perm : t.active.Perm t'.active)
    (limit : Option (NonNegative ℚ)) (p : RatioProgress ℚ) :
    r'.checkLimit k limit p = r.checkLimit k limit p := by
  have exceeds : ∀ x, r'.state.exceeds k r.constants t' x = r.state.exceeds k r.constants t x := by
    intro x
    have ratio := RatioKind.ratio_eq_of_rate (same.state.surface.line.rate perm) k r.constants
    unfold WellState.exceeds WellState.surface
    rw [ratio]
  unfold checkLimit
  rw [same.table, same.table', same.constants, has_eq perm]
  simp only [exceeds, same.checkCompletions_eq perm]

theorem checkLimits_eq (same : r.Reordered t t' r') (perm : t.active.Perm t'.active)
    (l : EconomicLimits ℚ) (kinds : List RatioKind) (p : RatioProgress ℚ) :
    r'.checkLimits l kinds p = r.checkLimits l kinds p := by
  induction kinds generalizing p with
  | nil => rfl
  | cons k rest ih => simp only [checkLimits, same.checkLimit_eq perm, ih]

theorem checkRatios_eq (same : r.Reordered t t' r') (perm : t.active.Perm t'.active)
    (l : EconomicLimits ℚ) (p : RatioProgress ℚ) : r'.checkRatios l p = r.checkRatios l p := by
  simp only [checkRatios, same.checkLimits_eq perm]

end Reordered
end RatioSource

namespace Producer
variable {r r' : RatioSource ℚ}

theorem rate_reviewed (w : Producer ℚ) {s s' : WellState ℚ} (same : s.Reordered t t' s')
    (perm : t.active.Perm t'.active) :
    t'.rate (w.reviewedRates s') = t.rate (w.reviewedRates s) := by
  unfold reviewedRates
  split
  · exact same.rate_potential perm
  · exact same.surface.line.rate perm

theorem settle_eq (same : r.Reordered t t' r') (perm : t.active.Perm t'.active) (w : Producer ℚ) :
    w.settle r' = w.settle r := by
  have exempts : ∀ c : ClosureRecord ℚ, c.exempts w.name r'.state = c.exempts w.name r.state := by
    intro c
    simp only [ClosureRecord.exempts, WellState.isStopped, same.state.status]
  have rates : w.limits.checkRates r'.table (w.reviewedRates r'.state) =
      w.limits.checkRates r.table (w.reviewedRates r.state) := by
    rw [same.table, same.table']
    exact EconomicLimits.checkRates_eq perm (w.rate_reviewed same.state perm) w.limits
  have ratios : w.reviewRatios r' = w.reviewRatios r := by
    funext notices
    simp only [reviewRatios, same.checkRatios_eq perm]
  have review : w.review r' = w.review r := by
    funext c
    simp only [Producer.review, exempts, reviewRates, rates, ratios]
  funext time writeMessages b
  simp only [settle, review]

end Producer

/-- An update writes down the same for related states. -/
theorem Evaluator.updateBooks_reordered {e e' : Evaluator ℚ} (perm : t.active.Perm t'.active)
    (same : e.Reordered t t' e') (constants : Constants ℚ) {s s' : WellState ℚ}
    (related : s.Reordered t t' s') :
    e'.updateBooks constants s' = e.updateBooks constants s := by
  have sources : (e.ratioSource constants s).Reordered t t' (e'.ratioSource constants s') :=
    { well := by rw [ratioSource, ratioSource, same.well]
      state := related
      table := same.table
      table' := same.table'
      owned := same.owned
      serial := same.serial
      serial' := same.serial'
      constants := rfl }
  have hooks := same.physical
  funext time b
  unfold updateBooks
  rw [same.well, same.writeMessages]
  generalize e.physical = hook, e'.physical = hook' at hooks
  split
  · rfl
  · rename_i w _
    rw [w.settle_eq sources perm]
    cases hooks with
    | none => rfl
    | some alike =>
      dsimp only
      rw [alike w s s' related]

end WellControl
