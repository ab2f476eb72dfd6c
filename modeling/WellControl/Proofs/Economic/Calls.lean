import Mathlib.Tactic.SplitIfs
import WellControl.Economic.Checks
import WellControl.Proofs.Outcome

/-! # Reductions of a ratio check

`RatioSource.calls` lists the arrays that a check of all ratio limits hands to the reduction, call
by call.  A check counts them (`checkRatios_reductions`), and, unless it fails, makes one for each
completion and each limit that the well exceeds (`checkRatios_calls_length`). -/
set_option autoImplicit false

namespace WellControl
variable {α : Type}

theorem PhaseTable.has_of_rate_eq_ok {t : PhaseTable} {rates : List α} {p : Phase} {x : α}
    (found : t.rate rates p = .ok x) : t.has p = true := by
  obtain ⟨i, positioned, _⟩ := Outcome.bind_eq_ok.1 found
  rw [has, decide_eq_true_eq]
  unfold position at positioned
  split at positioned
  · rename_i j located
    exact List.isSome_idxOf?.1 (Option.isSome_of_eq_some located)
  · cases positioned

variable [Scalar α]

theorem RatioKind.has_phases_of_ratio_eq_ok {k : RatioKind} {c : Constants α} {t : PhaseTable}
    {rates : List α} {x : α} (computed : k.ratio c t rates = .ok x) :
    (t.has k.phases.1 && t.has k.phases.2) = true := by
  obtain ⟨first, firstFound, computed⟩ := Outcome.bind_eq_ok.1 computed
  obtain ⟨second, secondFound, _⟩ := Outcome.bind_eq_ok.1 computed
  rw [PhaseTable.has_of_rate_eq_ok firstFound, PhaseTable.has_of_rate_eq_ok secondFound]
  rfl

namespace RatioSource

def exceeds (r : RatioSource α) (l : EconomicLimits α) (k : RatioKind) : Bool :=
  match EconomicLimits.active? (k.limit l), k.ratio r.constants r.table r.state.surface with
  | some limit, .ok x => decide (limit.val < x)
  | _, _ => false

section Calls

def scanCalls (r : RatioSource α) (k : RatioKind) :
    List (Int × List Nat) → Nat → List (List α)
  | [], _ => []
  | (_, connections) :: rest, reductions =>
    match r.ownRates connections with
    | .error _ => []
    | .ok rates =>
      rates ::
        match r.ownership.reduce reductions rates >>= k.ratio r.constants r.table with
        | .error _ => []
        | .ok _ => scanCalls r k rest (reductions + 1)

def completionCalls (r : RatioSource α) (k : RatioKind) (reductions : Nat) : List (List α) :=
  if r.state.perforationRates.shape = [] then []
  else if r.state.perforationRates.extent < r.rowsNeeded then []
  else r.scanCalls k r.well.completions reductions

def limitCalls (r : RatioSource α) (l : EconomicLimits α) (k : RatioKind) (reductions : Nat) :
    List (List α) :=
  if r.exceeds l k then r.completionCalls k reductions else []

def callsOver (r : RatioSource α) (l : EconomicLimits α) :
    List RatioKind → RatioProgress α → List (List α)
  | [], _ => []
  | k :: rest, p =>
    if EconomicLimits.isOn (k.limit l) then
      r.limitCalls l k p.reductions ++
        match r.checkLimit k (k.limit l) p with
        | (.error _, _) => []
        | (.ok (), p) => callsOver r l rest p
    else callsOver r l rest p

def calls (r : RatioSource α) (l : EconomicLimits α) (p : RatioProgress α) : List (List α) :=
  r.callsOver l RatioKind.checkingOrder p

end Calls

section Limits
variable {r : RatioSource α} {l : EconomicLimits α} {k : RatioKind}

theorem state_exceeds_eq_ok {s : WellState α} {constants : Constants α} {t : PhaseTable} {limit : α}
    {above : Bool} : s.exceeds k constants t limit = .ok above ↔
      ∃ x, k.ratio constants t s.surface = .ok x ∧ above = decide (limit < x) := by
  simp only [WellState.exceeds, Outcome.bind_eq_ok, Outcome.pure_eq_ok, Except.ok.injEq,
    @eq_comm Bool above]

theorem exceeds_eq_true_iff : r.exceeds l k = true ↔
    ∃ limit x, EconomicLimits.active? (k.limit l) = some limit ∧
      k.ratio r.constants r.table r.state.surface = .ok x ∧ limit.val < x := by
  unfold exceeds
  split
  · rename_i limit x active computed
    simp only [active, computed, decide_eq_true_eq, Option.some.injEq, Except.ok.injEq,
      exists_and_left, exists_eq_left']
  · rename_i other
    constructor
    · intro impossible
      cases impossible
    · rintro ⟨limit, x, active, computed, _⟩
      exact (other limit x active computed).elim

/-- A limit that the well exceeds is looked into completion by completion. -/
theorem checkLimit_of_exceeds {limit : NonNegative α}
    (active : EconomicLimits.active? (k.limit l) = some limit)
    (above : r.exceeds l k = true) (p : RatioProgress α) :
    r.checkLimit k (k.limit l) p =
      r.checkCompletions k limit.val { p with report := { p.report with violated := true } } := by
  obtain ⟨limit', x, active', computed, higher⟩ := exceeds_eq_true_iff.1 above
  cases Option.some.inj (active.symm.trans active')
  have exceeded : r.state.exceeds k r.constants r.table limit.val = .ok true :=
    state_exceeds_eq_ok.2 ⟨x, computed, (decide_eq_true higher).symm⟩
  simp only [checkLimit, RatioKind.has_phases_of_ratio_eq_ok computed, active, exceeded]

/-- What becomes of a limit that the well as a whole does not exceed. -/
def wellOutcome (r : RatioSource α) (l : EconomicLimits α) (k : RatioKind) : Outcome α Unit :=
  match r.table.has k.phases.1 && r.table.has k.phases.2, EconomicLimits.active? (k.limit l) with
  | true, some limit =>
    match r.state.exceeds k r.constants r.table limit.val with
    | .error f => .error f
    | .ok _ => .ok ()
  | _, _ => .error .brokenExpectation

theorem checkLimit_of_not_exceeds (quiet : r.exceeds l k = false) (p : RatioProgress α) :
    r.checkLimit k (k.limit l) p = (r.wellOutcome l k, p) := by
  cases phases : r.table.has k.phases.1 && r.table.has k.phases.2 with
  | false => simp only [checkLimit, wellOutcome, phases]
  | true =>
    cases active : EconomicLimits.active? (k.limit l) with
    | none => simp only [checkLimit, wellOutcome, phases, active]
    | some limit =>
      cases computed : r.state.exceeds k r.constants r.table limit.val with
      | error f => simp only [checkLimit, wellOutcome, phases, active, computed]
      | ok above =>
        cases above with
        | false => simp only [checkLimit, wellOutcome, phases, active, computed]
        | true =>
          obtain ⟨x, ratio_eq, higher⟩ := state_exceeds_eq_ok.1 computed
          have above := exceeds_eq_true_iff.2
            ⟨limit, x, active, ratio_eq, of_decide_eq_true higher.symm⟩
          rw [above] at quiet
          cases quiet

end Limits

section Counts
variable (r : RatioSource α) (l : EconomicLimits α) (k : RatioKind)

theorem highest_reductions (completions : List (Int × List Nat)) (n : Nat) (best : Highest α) :
    (r.highest k completions n best).2 = n + (r.scanCalls k completions n).length := by
  induction completions generalizing n best with
  | nil => rfl
  | cons completion rest ih =>
    obtain ⟨id, connections⟩ := completion
    simp only [highest, scanCalls]
    cases r.ownRates connections with
    | error f => rfl
    | ok rates =>
      cases reduced : r.ownership.reduce n rates >>= k.ratio r.constants r.table with
      | error f => simp only [reduced, List.length_cons, List.length_nil]
      | ok x =>
        simp only [reduced, ih, List.length_cons]
        omega

theorem scanCalls_length {completions : List (Int × List Nat)} {n : Nat} {best highest : Highest α}
    (scanned : (r.highest k completions n best).1 = .ok highest) :
    (r.scanCalls k completions n).length = completions.length := by
  induction completions generalizing n best with
  | nil => rfl
  | cons completion rest ih =>
    obtain ⟨id, connections⟩ := completion
    simp only [RatioSource.highest] at scanned
    simp only [scanCalls]
    cases computed : r.ownRates connections with
    | error f =>
      rw [computed] at scanned
      cases scanned
    | ok rates =>
      simp only [computed] at scanned
      cases reduced : r.ownership.reduce n rates >>= k.ratio r.constants r.table with
      | error f =>
        rw [reduced] at scanned
        cases scanned
      | ok x =>
        simp only [reduced] at scanned
        simp only [reduced, List.length_cons, ih scanned]

theorem checkCompletions_reductions (limit : α) (p : RatioProgress α) :
    (r.checkCompletions k limit p).2.reductions =
      p.reductions + (r.completionCalls k p.reductions).length := by
  unfold checkCompletions completionCalls
  split_ifs
  · rfl
  · rfl
  · rw [← r.highest_reductions k r.well.completions p.reductions ⟨noCompletion, 0⟩]
    rcases r.highest k r.well.completions p.reductions ⟨noCompletion, 0⟩ with ⟨outcome, n⟩
    cases outcome with
    | error f => rfl
    | ok best => cases entered : enter p.report limit best <;> simp only [entered]

theorem completionCalls_length {limit : α} {report : RatioReport α} {n : Nat}
    (checked : (r.checkCompletions k limit ⟨report, n⟩).1 = .ok ()) :
    (r.completionCalls k n).length = r.well.completions.length := by
  unfold checkCompletions at checked
  unfold completionCalls
  split_ifs at checked ⊢
  rcases scanned : r.highest k r.well.completions n ⟨noCompletion, 0⟩ with ⟨outcome, n'⟩
  simp only [scanned] at checked
  cases outcome with
  | error f => cases checked
  | ok best => exact r.scanCalls_length k (congrArg Prod.fst scanned)

theorem checkLimit_reductions (p : RatioProgress α) :
    (r.checkLimit k (k.limit l) p).2.reductions =
      p.reductions + (r.limitCalls l k p.reductions).length := by
  unfold limitCalls
  split_ifs with above
  · obtain ⟨limit, _, active, _⟩ := exceeds_eq_true_iff.1 above
    rw [checkLimit_of_exceeds active above, checkCompletions_reductions]
  · rw [checkLimit_of_not_exceeds (Bool.eq_false_iff.2 above)]
    rfl

theorem limitCalls_length {p : RatioProgress α}
    (checked : (r.checkLimit k (k.limit l) p).1 = .ok ()) :
    (r.limitCalls l k p.reductions).length =
      if r.exceeds l k then r.well.completions.length else 0 := by
  unfold limitCalls
  split_ifs with above
  · obtain ⟨limit, _, active, _⟩ := exceeds_eq_true_iff.1 above
    rw [checkLimit_of_exceeds active above] at checked
    exact completionCalls_length r k checked
  · rfl

theorem checkLimits_reductions (kinds : List RatioKind) (p : RatioProgress α) :
    (r.checkLimits l kinds p).2.reductions = p.reductions + (r.callsOver l kinds p).length := by
  induction kinds generalizing p with
  | nil => rfl
  | cons k rest ih =>
    simp only [checkLimits, callsOver]
    split_ifs
    · have counted := r.checkLimit_reductions l k p
      rcases checked : r.checkLimit k (k.limit l) p with ⟨outcome, p'⟩
      rw [checked] at counted
      change p'.reductions = _ at counted
      cases outcome with
      | error f => simp only [counted, List.append_nil]
      | ok _ => simp only [ih, counted, List.length_append, Nat.add_assoc]
    · exact ih p

theorem exceeds_eq_false_of_off (off : EconomicLimits.isOn (k.limit l) ≠ true) :
    r.exceeds l k = false := by
  rw [Bool.eq_false_iff]
  intro above
  obtain ⟨limit, _, active, _⟩ := exceeds_eq_true_iff.1 above
  exact off (Option.isSome_of_eq_some active)

theorem callsOver_length {kinds : List RatioKind} {p : RatioProgress α}
    (checked : (r.checkLimits l kinds p).1 = .ok ()) :
    (r.callsOver l kinds p).length =
      r.well.completions.length * (kinds.filter (r.exceeds l)).length := by
  induction kinds generalizing p with
  | nil => rfl
  | cons k rest ih =>
    simp only [checkLimits] at checked
    simp only [callsOver]
    split_ifs at checked ⊢ with on
    · rcases limit : r.checkLimit k (k.limit l) p with ⟨outcome, p'⟩
      simp only [limit] at checked
      cases outcome with
      | error f => cases checked
      | ok _ =>
        have own := r.limitCalls_length l k (congrArg Prod.fst limit)
        rw [List.length_append, own, ih checked, List.filter_cons]
        split_ifs
        · rw [List.length_cons, Nat.mul_succ, Nat.add_comm]
        · rw [Nat.zero_add]
    · rw [ih checked, List.filter_cons, r.exceeds_eq_false_of_off l k on]
      rfl

theorem checkRatios_progress (p : RatioProgress α) :
    (r.checkRatios l p).2.1 = (r.checkLimits l RatioKind.checkingOrder p).2 := by
  unfold checkRatios
  rcases r.checkLimits l RatioKind.checkingOrder p with ⟨outcome, p'⟩
  cases outcome with
  | error f => rfl
  | ok _ =>
    simp only
    split_ifs <;> rfl

theorem checkRatios_reductions (p : RatioProgress α) :
    (r.checkRatios l p).2.1.reductions = p.reductions + (r.calls l p).length := by
  rw [checkRatios_progress]
  exact r.checkLimits_reductions l RatioKind.checkingOrder p

theorem checkRatios_calls_length {p : RatioProgress α}
    (checked : (r.checkRatios l p).1 = .ok ()) :
    (r.calls l p).length =
      r.well.completions.length * (RatioKind.checkingOrder.filter (r.exceeds l)).length := by
  apply r.callsOver_length
  unfold checkRatios at checked
  split at checked
  · cases checked
  · rename_i limits
    rw [limits]

end Counts

end RatioSource
end WellControl
