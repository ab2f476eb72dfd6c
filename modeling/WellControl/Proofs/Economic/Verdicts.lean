import WellControl.Proofs.Closure.Additions
import WellControl.Proofs.Economic.Calls
import WellControl.Proofs.Plain

/-! # The verdict of an economic review

A review ends early in several places and tells the limits that are on from those that are not.
What it comes to is one policy (`Producer.policy`): a minimum rate that is violated closes the well,
else the worst completion of a violated ratio limit is left to the workover.  An update of a
predicted producer carries this out and does nothing else (`Evaluator.updateBooks_policy`). -/
set_option autoImplicit false

namespace WellControl
variable {α : Type} [Scalar α]

namespace EconomicLimits

/-- The minimum rates that are compared, each with the phases that flow together. -/
def minimumRates (l : EconomicLimits α) : List (Option (NonNegative α) × List Phase) :=
  [(l.minOilRate, [.oil]), (l.minGasRate, [.gas]), (l.minLiquidRate, [.oil, .water])]

/-- Whether a minimum rate is on and above the flow of its phases, in either direction. -/
def undercut (least : Option (NonNegative α)) (phases : List Phase) (t : PhaseTable)
    (rates : List α) : Bool :=
  match least, phases.mapM (t.rate rates) with
  | some least, .ok flows =>
    decide (0 < least.val) && decide (Scalar.magnitude (Scalar.sum flows) < least.val)
  | _, _ => false

def violatesRate (l : EconomicLimits α) (t : PhaseTable) (rates : List α) : Bool :=
  l.minimumRates.any fun m => undercut m.1 m.2 t rates

end EconomicLimits

def RatioSource.worst? (r : RatioSource α) (l : EconomicLimits α) : Option Int :=
  match r.checkRatios l ⟨.fresh, 0⟩ with
  | (.ok (), p, _) => if p.report.violated then some p.report.worst else none
  | (.error _, _, _) => none

namespace Producer

/-- Minimum rates are compared with the well's potentials or with its surface rates. -/
def violatesRate (w : Producer α) (source : RatioSource α) : Bool :=
  match w.limits.quantityLimit with
  | .potn => w.limits.violatesRate source.table source.state.potential
  | .rate => w.limits.violatesRate source.table source.state.surface

/-- What should become of a well that is not exempt. -/
def policy (w : Producer α) (source : RatioSource α) : Verdict :=
  if w.violatesRate source then .closeForRate
  else
    match source.worst? w.limits, w.limits.workover with
    | some k, .con => .closeCompletion k
    | some _, .well => .closeForRatio
    | _, _ => .keep

end Producer

/-! ## Checks against the policy -/

namespace EconomicLimits
variable {l : EconomicLimits α} {t : PhaseTable} {rates : List α}

theorem active?_of_off {limit : Option (NonNegative α)} (off : isOn limit = false) :
    active? limit = none :=
  Option.isNone_iff_eq_none.1 (Option.isSome_eq_false_iff.1 off)

theorem undercut_eq (least : Option (NonNegative α)) (phases : List Phase) (t : PhaseTable)
    (rates : List α) :
    undercut least phases t rates =
      match active? least, phases.mapM (t.rate rates) with
      | some least, .ok flows => decide (Scalar.magnitude (Scalar.sum flows) < least.val)
      | _, _ => false := by
  unfold undercut
  cases least with
  | none => rfl
  | some least =>
    by_cases positive : 0 < least.val
    · rw [active?, Option.filter_some_pos (by simpa using positive)]
      cases phases.mapM (t.rate rates) <;> simp [positive]
    · rw [active?, Option.filter_some_neg (by simpa using positive)]
      cases phases.mapM (t.rate rates) <;> simp [positive]

theorem undercut_of_off {least : Option (NonNegative α)} (off : isOn least = false)
    (phases : List Phase) : undercut least phases t rates = false := by
  simp only [undercut_eq, active?_of_off off]

theorem undercut_of_belowMinimum {least : Option (NonNegative α)} {phases : List Phase} {low : Bool}
    (checked : belowMinimum least phases t rates = .ok low) :
    low = undercut least phases t rates := by
  unfold belowMinimum at checked
  rw [undercut_eq]
  split at checked
  · rename_i inactive
    rw [inactive]
    exact (Except.ok.inj checked).symm
  · rename_i active
    split at checked
    · obtain ⟨flows, found, compared⟩ := Outcome.bind_eq_ok.1 checked
      rw [active, found]
      exact (Except.ok.inj compared).symm
    · cases checked

/-- One step of a check that stops at the first minimum rate that is violated. -/
theorem undercut_of_checked {least : Option (NonNegative α)} {phases : List Phase}
    {rest : Outcome α (Bool × Journal)} {low : Bool} {notices : Journal}
    (checked : (belowMinimum least phases t rates >>= fun below =>
      if below = true then .ok (true, []) else rest) = .ok (low, notices)) :
    undercut least phases t rates = true ∧ low = true ∨
      undercut least phases t rates = false ∧ rest = .ok (low, notices) := by
  obtain ⟨below, compared, checked⟩ := Outcome.bind_eq_ok.1 checked
  obtain rfl := undercut_of_belowMinimum compared
  split at checked
  · rename_i violated
    cases checked
    exact .inl ⟨violated, rfl⟩
  · rename_i kept
    exact .inr ⟨Bool.eq_false_iff.2 kept, checked⟩

theorem violatesRate_of_checkRates {low : Bool} {notices : Journal}
    (checked : l.checkRates t rates = .ok (low, notices)) : low = l.violatesRate t rates := by
  rcases undercut_of_checked checked with ⟨oil, rfl⟩ | ⟨oil, checked⟩
  · simp [violatesRate, minimumRates, oil]
  rcases undercut_of_checked checked with ⟨gas, rfl⟩ | ⟨gas, checked⟩
  · simp [violatesRate, minimumRates, gas]
  rcases undercut_of_checked checked with ⟨liquid, rfl⟩ | ⟨liquid, checked⟩
  · simp [violatesRate, minimumRates, liquid]
  · cases checked
    simp [violatesRate, minimumRates, oil, gas, liquid]

theorem violatesRate_of_off (off : l.anyRateLimit = false) : l.violatesRate t rates = false := by
  simp only [anyRateLimit, Bool.or_eq_false_iff] at off
  obtain ⟨⟨⟨oil, gas⟩, liquid⟩, _⟩ := off
  simp [violatesRate, minimumRates, undercut_of_off, oil, gas, liquid]

end EconomicLimits

@[simp] theorem RatioReport.violated_fresh : (fresh : RatioReport α).violated = false := rfl

namespace RatioSource

theorem worst?_of_checkRatios {r : RatioSource α} {l : EconomicLimits α} {p : RatioProgress α}
    {notices : Journal} (checked : r.checkRatios l ⟨.fresh, 0⟩ = (.ok (), p, notices)) :
    r.worst? l = if p.report.violated then some p.report.worst else none := by
  simp only [worst?, checked]

theorem checkRatios_of_off (r : RatioSource α) {l : EconomicLimits α}
    (off : l.anyRatioLimit = false) :
    r.checkRatios l ⟨.fresh, 0⟩ = (.ok (), ⟨.fresh, 0⟩, []) := by
  simp only [EconomicLimits.anyRatioLimit, Bool.or_eq_false_iff] at off
  obtain ⟨⟨⟨water, gas⟩, waterGas⟩, gasLiquid⟩ := off
  have unchecked : r.checkLimits l RatioKind.checkingOrder ⟨.fresh, 0⟩ = (.ok (), ⟨.fresh, 0⟩) := by
    simp [RatioKind.checkingOrder, checkLimits, RatioKind.limit, water, gas, waterGas]
  simp [checkRatios, unchecked, gasLiquid]

theorem worst?_of_off (r : RatioSource α) {l : EconomicLimits α} (off : l.anyRatioLimit = false) :
    r.worst? l = none := by
  rw [worst?_of_checkRatios (r.checkRatios_of_off off)]
  rfl

end RatioSource

namespace Producer
variable {w : Producer α} {source : RatioSource α} {c : ClosureRecord α} {v : Verdict}

theorem violatesRate_eq (w : Producer α) (source : RatioSource α) :
    w.violatesRate source =
      w.limits.violatesRate source.table (w.reviewedRates source.state) := by
  unfold violatesRate reviewedRates
  cases w.limits.quantityLimit <;> rfl

theorem violatesRate_of_checkRates {low : Bool} {notices : Journal}
    (checked : w.limits.checkRates source.table (w.reviewedRates source.state) =
      .ok (low, notices)) : w.violatesRate source = low := by
  rw [violatesRate_eq]
  exact (EconomicLimits.violatesRate_of_checkRates checked).symm

theorem violatesRate_of_off (off : w.limits.anyRateLimit = false) :
    w.violatesRate source = false := by
  rw [violatesRate_eq]
  exact EconomicLimits.violatesRate_of_off off

theorem workoverVerdict_eq (w : Producer α) (report : RatioReport α) :
    (w.workoverVerdict report).1 = match w.limits.workover with
      | .con => .closeCompletion report.worst
      | .well => .closeForRatio
      | _ => .keep := by
  unfold workoverVerdict
  cases w.limits.workover <;> rfl

theorem policy_of_reviewRatios {notices : Journal} (rated : w.violatesRate source = false)
    (reviewed : (w.reviewRatios source notices).verdict = .ok v) : v = w.policy source := by
  rw [policy, rated, if_neg Bool.false_ne_true]
  unfold reviewRatios at reviewed
  split at reviewed
  · split at reviewed
    · cases reviewed
    · rename_i p more checked
      rw [source.worst?_of_checkRatios checked]
      split at reviewed
      · rename_i violated
        rw [← Except.ok.inj reviewed, workoverVerdict_eq, if_pos violated]
        cases w.limits.workover <;> rfl
      · rename_i quiet
        rw [← Except.ok.inj reviewed, if_neg quiet]
  · rename_i off
    rw [source.worst?_of_off (Bool.eq_false_iff.2 off)]
    exact (Except.ok.inj reviewed).symm

theorem policy_of_review (considered : c.exempts w.name source.state = false)
    (reviewed : (w.review source c).verdict = .ok v) : v = w.policy source := by
  rw [review, considered, Bool.false_or] at reviewed
  split at reviewed
  · rename_i off
    rw [Bool.not_eq_true', EconomicLimits.anyLimit, Bool.or_eq_false_iff] at off
    rw [policy, violatesRate_of_off off.1, source.worst?_of_off off.2]
    exact (Except.ok.inj reviewed).symm
  · unfold reviewRates at reviewed
    split at reviewed
    · split at reviewed
      · cases reviewed
      · rename_i checked
        rw [policy, if_pos (violatesRate_of_checkRates checked)]
        exact (Except.ok.inj reviewed).symm
      · rename_i checked
        exact policy_of_reviewRatios (violatesRate_of_checkRates checked) reviewed
    · rename_i off
      exact policy_of_reviewRatios (violatesRate_of_off (Bool.eq_false_iff.2 off)) reviewed

theorem policy_eq_closeCompletion_iff {k : Int} : w.policy source = .closeCompletion k ↔
    w.violatesRate source = false ∧ source.worst? w.limits = some k ∧
      w.limits.workover = .con := by
  unfold policy
  cases w.violatesRate source with
  | true => simp
  | false =>
    cases source.worst? w.limits with
    | none => simp
    | some worst => cases w.limits.workover <;> simp

/-! ## Carrying out a verdict -/

theorem isPlugged_closeCompletion (w : Producer α) (c : ClosureRecord α) (id : Int) (time : α) :
    w.isPlugged (c.closeCompletion w.name id time).2 = w.openConnections.all fun d =>
      decide (d.completionId = id) || c.hasCompletion w.name d.completionId := by
  simp only [isPlugged, ClosureRecord.hasCompletion_closeCompletion]

/-- Whether a verdict closes the well: as such, or by closing its last open completion. -/
def closes (w : Producer α) (c : ClosureRecord α) : Verdict → Bool
  | .keep => false
  | .closeForRate | .closeForRatio => true
  | .closeCompletion id => w.openConnections.all fun d =>
    decide (d.completionId = id) || c.hasCompletion w.name d.completionId

theorem closes_policy_iff (w : Producer α) (source : RatioSource α) (c : ClosureRecord α) :
    w.closes c (w.policy source) = true ↔
      w.violatesRate source = true ∨
      w.violatesRate source = false ∧ ∃ k, source.worst? w.limits = some k ∧
        (w.limits.workover = .well ∨ w.limits.workover = .con ∧ ∀ d ∈ w.openConnections,
          d.completionId = k ∨ c.hasCompletion w.name d.completionId = true) := by
  unfold policy
  cases w.violatesRate source with
  | true => simp [closes]
  | false =>
    cases source.worst? w.limits with
    | none => simp [closes]
    | some worst => cases w.limits.workover <;> simp [closes]

theorem hasWell_carryOut (w : Producer α) (time : α) (c : ClosureRecord α) (v : Verdict) :
    (w.carryOut time c v).1.hasWell w.name (some .economic) =
      (c.hasWell w.name (some .economic) || w.closes c v) := by
  cases v with
  | keep => exact (Bool.or_false _).symm
  | closeForRate =>
    rw [closes, Bool.or_true]
    exact ClosureRecord.hasWell_closeWell _ _ _ _
  | closeForRatio =>
    rw [closes, Bool.or_true]
    exact ClosureRecord.hasWell_closeWell _ _ _ _
  | closeCompletion id =>
    rw [closes, ← isPlugged_closeCompletion w c id time]
    cases plugged : w.isPlugged (c.closeCompletion w.name id time).2 with
    | true =>
      simp only [carryOut, plugged, if_true, Bool.or_true]
      exact ClosureRecord.hasWell_closeWell _ _ _ _
    | false => simp [carryOut, plugged]

theorem hasCompletion_carryOut (w : Producer α) (time : α) (c : ClosureRecord α) (v : Verdict)
    (id : Int) : (w.carryOut time c v).1.hasCompletion w.name id =
      (c.hasCompletion w.name id || decide (v = .closeCompletion id)) := by
  have kept (d : ClosureRecord α) :
      (d.closeWell w.name .economic time).2.hasCompletion w.name id = d.hasCompletion w.name id :=
    rfl
  cases v with
  | keep => simp [carryOut]
  | closeForRate => simp [carryOut, kept]
  | closeForRatio => simp [carryOut, kept]
  | closeCompletion k =>
    have closed := ClosureRecord.hasCompletion_closeCompletion c w.name k time id
    rw [Bool.or_comm] at closed
    simp only [Verdict.closeCompletion.injEq, @eq_comm Int k]
    rw [← closed, carryOut]
    split
    · exact kept _
    · rfl

theorem settle_eq_ok {time : α} {writeMessages : Bool} {b : Books α}
    (settled : (w.settle source time writeMessages b).1 = .ok ()) :
    ∃ v, (w.review source b.closures).verdict = .ok v ∧
      (w.settle source time writeMessages b).2.closures = (w.carryOut time b.closures v).1 := by
  cases reviewed : (w.review source b.closures).verdict with
  | error fault => simp [settle, reviewed] at settled
  | ok v => exact ⟨v, rfl, by simp only [settle, reviewed]⟩

theorem closures_settle {time : α} {writeMessages : Bool} {b : Books α}
    (considered : b.closures.exempts w.name source.state = false)
    (settled : (w.settle source time writeMessages b).1 = .ok ()) :
    (w.settle source time writeMessages b).2.closures =
      (w.carryOut time b.closures (w.policy source)).1 := by
  obtain ⟨v, reviewed, after⟩ := settle_eq_ok settled
  rw [after, policy_of_review considered reviewed]

theorem adds_carryOut (w : Producer α) (time : α) (c : ClosureRecord α) (v : Verdict) :
    ∃ closes ids, ClosureRecord.Adds w.name time closes ids c (w.carryOut time c v).1 := by
  obtain ⟨closes, ids, _, carried⟩ := w.carryOut_local time v c
  exact ⟨closes, ids, (carried c (.refl _ _)).1⟩

end Producer

/-- What an update of a producer does to the record of closures, unless it fails.  A producer that
is not predicted, is stopped or was closed economically before is left alone.  Any other is closed
economically if it violates a minimum rate, or if it violates a ratio limit and the workover closes
the well, or the worst completion and with it the last open one.  A completion is closed if it is
the worst and the workover closes that.  All closures are of this well and made at this time. -/
theorem Evaluator.updateBooks_policy {e : Evaluator α} {w : Producer α} {constants : Constants α}
    {s : WellState α} {time : α} {b : Books α} (well : e.well = .producer w)
    (noHook : e.physical = none) (updated : (e.updateBooks constants s time b).1 = .ok ()) :
    let source := e.ratioSource constants s
    let before := b.closures
    let after := (e.updateBooks constants s time b).2.closures
    ((w.controls.prediction = false ∨ s.isStopped = true ∨
      before.hasWell w.name (some .economic) = true) → after = before) ∧
    ((w.controls.prediction = true ∧ s.isStopped = false ∧
      before.hasWell w.name (some .economic) = false) →
      (after.hasWell w.name (some .economic) = true ↔
        w.violatesRate source = true ∨
        w.violatesRate source = false ∧ ∃ k, source.worst? w.limits = some k ∧
          (w.limits.workover = .well ∨ w.limits.workover = .con ∧ ∀ d ∈ w.openConnections,
            d.completionId = k ∨ before.hasCompletion w.name d.completionId = true)) ∧
      (∀ id, after.hasCompletion w.name id = true ↔
        before.hasCompletion w.name id = true ∨
        w.violatesRate source = false ∧ source.worst? w.limits = some id ∧
          w.limits.workover = .con) ∧
      ∃ closes ids, ClosureRecord.Adds w.name time closes ids before after) := by
  intro source before after
  cases predicted : w.controls.prediction with
  | false =>
    have unchanged : after = before := by simp [after, updateBooks, well, predicted, before]
    refine ⟨fun _ => unchanged, ?_⟩
    rintro ⟨impossible, _⟩
    cases impossible
  | true =>
    have settles : e.updateBooks constants s time b = w.settle source time e.writeMessages b := by
      simp only [updateBooks, well, predicted, noHook, if_true, source]
    rw [settles] at updated
    constructor
    · intro left
      have exempt : before.exempts w.name source.state = true := by
        rw [ClosureRecord.exempts, Bool.or_eq_true]
        exact left.resolve_left (by decide)
      show (e.updateBooks constants s time b).2.closures = before
      rw [settles, w.closures_settle_of_exempt exempt]
    · rintro ⟨_, running, notClosed⟩
      have considered : before.exempts w.name source.state = false := by
        rw [ClosureRecord.exempts, Bool.or_eq_false_iff]
        exact ⟨running, notClosed⟩
      have carried : after = (w.carryOut time before (w.policy source)).1 := by
        show (e.updateBooks constants s time b).2.closures = _
        rw [settles, Producer.closures_settle considered updated]
      rw [carried]
      refine ⟨?_, ?_, w.adds_carryOut time before _⟩
      · rw [Producer.hasWell_carryOut, notClosed, Bool.false_or]
        exact w.closes_policy_iff source before
      · intro k
        rw [Producer.hasCompletion_carryOut, Bool.or_eq_true, decide_eq_true_eq,
          Producer.policy_eq_closeCompletion_iff]

def Producer.watered : Producer ℚ :=
  { Producer.plain "P" "G" with
    connections := twoConnections
    distinct := twoConnections_distinct
    limits := { EconomicLimits.halfWater with workover := .con } }

def Producer.meagre (quantities : QuantityLimit) : Producer ℚ :=
  { Producer.watered with
    limits :=
      { Producer.watered.limits with
        minOilRate := some ⟨20, by decide +kernel⟩, quantityLimit := quantities } }

/-- The well produces 30 of oil and has a potential of 15.  Asked about its potentials it is closed
for the minimum rate.  Asked about its surface rates it loses its worst completion, which is the
last, since the other one was closed before. -/
theorem watered_policy :
    let e (quantities : QuantityLimit) : Evaluator ℚ := .plain (.producer (.meagre quantities))
    let s : WellState ℚ :=
      { WellState.flowing "P" (-50, -30, 0) [(-50, -30, 0), (0, 0, 0)] with
        potentials := some (.ofList [-25, -15, 0]) }
    let b : Books ℚ := ⟨(ClosureRecord.empty.closeCompletion "P" (-2) 3).2, [], 0⟩
    let updated (quantities : QuantityLimit) := (e quantities).updateBooks .standard s 4 b
    ((updated .potn).1 = .ok () ∧
      (updated .potn).2.closures.hasWell "P" (some .economic) = true ∧
      (updated .potn).2.closures.hasCompletion "P" 1 = false) ∧
    (updated .rate).1 = .ok () ∧
      (updated .rate).2.closures.hasWell "P" (some .economic) = true ∧
      (updated .rate).2.closures.hasCompletion "P" 1 = true := by
  intro e s b updated
  constructor
  · have returned : (updated .potn).1 = .ok () := by decide +kernel
    have violation : (Producer.meagre .potn).violatesRate ((e .potn).ratioSource .standard s) =
      true := by decide +kernel
    obtain ⟨_, acts⟩ := (e .potn).updateBooks_policy (w := .meagre .potn) rfl rfl returned
    obtain ⟨closed, completions, _⟩ := acts ⟨rfl, rfl, rfl⟩
    refine ⟨returned, closed.2 (.inl violation), Bool.eq_false_iff.2 fun recorded => ?_⟩
    rcases (completions 1).1 recorded with before | ⟨kept, _⟩
    · cases before
    · cases kept.symm.trans violation
  · have returned : (updated .rate).1 = .ok () := by decide +kernel
    have violation : (Producer.meagre .rate).violatesRate ((e .rate).ratioSource .standard s) =
        false ∧
      ((e .rate).ratioSource .standard s).worst? (Producer.meagre .rate).limits = some 1 := by
      decide +kernel
    obtain ⟨_, acts⟩ := (e .rate).updateBooks_policy (w := .meagre .rate) rfl rfl returned
    obtain ⟨closed, completions, _⟩ := acts ⟨rfl, rfl, rfl⟩
    have last : ∀ d ∈ (Producer.meagre .rate).openConnections,
        d.completionId = 1 ∨ b.closures.hasCompletion "P" d.completionId = true := by
      decide +kernel
    exact ⟨returned, closed.2 (.inr ⟨violation.1, 1, violation.2, .inr ⟨rfl, last⟩⟩),
      (completions 1).2 (.inr ⟨violation.1, violation.2, rfl⟩)⟩

end WellControl
