import WellControl.Economic.Review
import WellControl.Proofs.Economic.OwnRates
import WellControl.Proofs.State.Fitting

/-! # Faults of economic reviews

A review of rates that fit the phase table fails only where one of its checks meets rates that it
rules out, or for missing rates of connections (`Producer.ReviewRefusal`). -/
set_option autoImplicit false

namespace WellControl
variable {α : Type} [Scalar α] {t : PhaseTable} {fault : Fault α}

section Rates
variable {rates : List α}

theorem belowMinimum_eq_error (long : rates.length = t.size) {limit : Option (NonNegative α)}
    {phases : List Phase} (failed : belowMinimum limit phases t rates = .error fault) :
    fault = .brokenExpectation := by
  unfold belowMinimum at failed
  split at failed
  · cases failed
  · split at failed
    · rename_i carried
      have active : ∀ p ∈ phases, p ∈ t.active := fun p listed =>
        PhaseTable.has_iff.1 (List.all_eq_true.1 carried p listed)
      rw [PhaseTable.mapM_rate_eq long active] at failed
      cases failed
    · cases failed
      rfl

theorem EconomicLimits.checkRates_eq_error {l : EconomicLimits α} (long : rates.length = t.size)
    (failed : l.checkRates t rates = .error fault) : fault = .brokenExpectation := by
  rcases Outcome.bind_eq_error.1 failed with oil | ⟨low, -, failed⟩
  · exact belowMinimum_eq_error long oil
  cases low with
  | true => cases failed
  | false =>
    rcases Outcome.bind_eq_error.1 failed with gas | ⟨low, -, failed⟩
    · exact belowMinimum_eq_error long gas
    cases low with
    | true => cases failed
    | false =>
      rcases Outcome.bind_eq_error.1 failed with liquid | ⟨low, -, failed⟩
      · exact belowMinimum_eq_error long liquid
      cases low <;> cases failed

end Rates

def Fault.RuledOut (fault : Fault α) : Prop := fault = .opposedRates ∨ fault = .brokenExpectation

/-- Both rates of a ratio are there to be read, so it fails only on rates that flow in opposite
directions. -/
theorem RatioKind.ratio_eq_error {k : RatioKind} {c : Constants α} {rates : List α}
    (carried : (t.has k.phases.1 && t.has k.phases.2) = true) (long : rates.length = t.size)
    (failed : k.ratio c t rates = .error fault) : fault = .opposedRates := by
  rw [Bool.and_eq_true, PhaseTable.has_iff, PhaseTable.has_iff] at carried
  simp only [ratio, PhaseTable.rate_eq long carried.1, PhaseTable.rate_eq long carried.2,
    Outcome.ok_bind] at failed
  split at failed
  · cases k <;> cases failed
  · cases failed
    rfl

namespace RatioSource
variable {r : RatioSource α} {k : RatioKind}

structure Fits (r : RatioSource α) : Prop where
  state : r.state.Fits r.table
  serial : ∀ n rates, r.ownership.reduce n rates = .ok rates

def Refuses (r : RatioSource α) (fault : Fault α) : Prop :=
  fault.RuledOut ∨ r.state.perforationRates.extent < r.rowsNeeded ∧
    fault = .missingPerforations r.well.name r.state.perforationRates.extent r.rowsNeeded

theorem Fits.hasRows (fits : r.Fits)
    (enough : ¬ r.state.perforationRates.extent < r.rowsNeeded) : r.HasRows := by
  obtain ⟨rows, shape⟩ := fits.state.perforations
  refine ⟨rows, shape, ?_⟩
  rw [Grid.extent, shape] at enough
  exact Nat.not_lt.1 enough

theorem highest_eq_error (fits : r.Fits) (rowed : r.HasRows)
    (carried : (r.table.has k.phases.1 && r.table.has k.phases.2) = true)
    {completions : List (Int × List Nat)}
    (inside : ∀ completion ∈ completions, ∀ i ∈ completion.2, i < r.rowsNeeded) {n m : Nat}
    {best : Highest α} (failed : r.highest k completions n best = (.error fault, m)) :
    fault = .opposedRates := by
  induction completions generalizing n best with
  | nil => cases failed
  | cons completion rest ih =>
    obtain ⟨id, connections⟩ := completion
    simp only [highest, ownRates_eq rowed (inside _ List.mem_cons_self), fits.serial,
      Outcome.ok_bind] at failed
    split at failed
    · rename_i refused
      cases failed
      exact RatioKind.ratio_eq_error carried List.length_ofFn refused
    · exact ih (fun later listed => inside later (List.mem_cons_of_mem _ listed)) failed

theorem checkCompletions_eq_error (fits : r.Fits)
    (carried : (r.table.has k.phases.1 && r.table.has k.phases.2) = true) {limit : α}
    {p p' : RatioProgress α} (failed : r.checkCompletions k limit p = (.error fault, p')) :
    r.Refuses fault := by
  obtain ⟨rows, shape⟩ := fits.state.perforations
  rw [checkCompletions, if_neg (by rw [shape]; exact List.cons_ne_nil _ _)] at failed
  split at failed
  · rename_i few
    cases failed
    exact .inr ⟨few, rfl⟩
  · rename_i enough
    left
    split at failed
    · rename_i scanned
      cases failed
      exact .inl (highest_eq_error fits (fits.hasRows enough) carried
        (fun _ => completion_lt_rowsNeeded) scanned)
    · split at failed
      · rename_i entered
        cases failed
        unfold enter at entered
        split at entered
        · split at entered <;> cases entered
        · cases entered
          exact .inr rfl
      · cases failed

theorem checkLimit_eq_error (fits : r.Fits) {limit : Option (NonNegative α)}
    {p p' : RatioProgress α} (failed : r.checkLimit k limit p = (.error fault, p')) :
    r.Refuses fault := by
  unfold checkLimit at failed
  split at failed
  · rename_i carried _
    split at failed
    · rename_i refused
      cases failed
      rcases Outcome.bind_eq_error.1 refused with opposed | ⟨_, -, impossible⟩
      · exact .inl (.inl (RatioKind.ratio_eq_error carried fits.state.length_surface opposed))
      · cases impossible
    · cases failed
    · exact checkCompletions_eq_error fits carried failed
  · cases failed
    exact .inl (.inr rfl)

theorem checkLimits_eq_error (fits : r.Fits) {l : EconomicLimits α} {kinds : List RatioKind}
    {p p' : RatioProgress α} (failed : r.checkLimits l kinds p = (.error fault, p')) :
    r.Refuses fault := by
  induction kinds generalizing p with
  | nil => cases failed
  | cons k rest ih =>
    rw [checkLimits] at failed
    split at failed
    · split at failed
      · rename_i refused
        cases failed
        exact checkLimit_eq_error fits refused
      · exact ih failed
    · exact ih failed

theorem checkRatios_eq_error (fits : r.Fits) {l : EconomicLimits α} {p : RatioProgress α}
    (failed : (r.checkRatios l p).1 = .error fault) : r.Refuses fault := by
  unfold checkRatios at failed
  split at failed
  · rename_i refused
    cases failed
    exact checkLimits_eq_error fits refused
  · dsimp only at failed
    split at failed
    · cases failed
      exact .inl (.inr rfl)
    · cases failed

end RatioSource

inductive Producer.ReviewRefusal (w : Producer α) (r : RatioSource α) : Fault α → Prop
  /-- The check of the minimum rates meets a phase that the model does not carry. -/
  | rates (failed : w.limits.checkRates r.table (w.reviewedRates r.state) =
      .error .brokenExpectation) : ReviewRefusal w r .brokenExpectation
  /-- The check of the ratios meets rates that it rules out. -/
  | ratios {fault : Fault α} (failed : (r.checkRatios w.limits ⟨.fresh, 0⟩).1 = .error fault)
      (cause : fault.RuledOut) : ReviewRefusal w r fault
  | rows (few : r.state.perforationRates.extent < r.rowsNeeded) :
      ReviewRefusal w r
        (.missingPerforations r.well.name r.state.perforationRates.extent r.rowsNeeded)

namespace Producer
variable {w : Producer α} {r : RatioSource α}

theorem reviewRatios_eq_error (fits : r.Fits) {notices : Journal}
    (failed : (w.reviewRatios r notices).verdict = .error fault) : w.ReviewRefusal r fault := by
  unfold reviewRatios at failed
  split at failed
  · split at failed
    · rename_i checked
      have refused := congrArg Prod.fst checked
      cases failed
      rcases RatioSource.checkRatios_eq_error fits refused with cause | ⟨few, rfl⟩
      · exact .ratios refused cause
      · exact .rows few
    · dsimp only at failed
      split at failed <;> cases failed
  · cases failed

theorem review_eq_error (fits : r.Fits) {closures : ClosureRecord α}
    (failed : (w.review r closures).verdict = .error fault) : w.ReviewRefusal r fault := by
  have long : (w.reviewedRates r.state).length = r.table.size := by
    unfold reviewedRates
    split
    · exact fits.state.length_potential
    · exact fits.state.length_surface
  unfold review at failed
  split at failed
  · cases failed
  unfold reviewRates at failed
  split at failed
  · split at failed
    · rename_i refused
      cases failed
      obtain rfl := EconomicLimits.checkRates_eq_error long refused
      exact .rates refused
    · cases failed
    · exact reviewRatios_eq_error fits failed
  · exact reviewRatios_eq_error fits failed

theorem settle_eq_error (fits : r.Fits) {time : α} {writeMessages : Bool} {b : Books α}
    (failed : (w.settle r time writeMessages b).1 = .error fault) : w.ReviewRefusal r fault := by
  unfold settle at failed
  dsimp only at failed
  split at failed
  · rename_i refused
    cases failed
    exact review_eq_error fits refused
  · cases failed

end Producer
end WellControl
