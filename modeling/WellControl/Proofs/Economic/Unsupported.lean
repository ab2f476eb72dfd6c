import WellControl.Economic.LowPressure
import WellControl.Proofs.Economic.Verdicts

/-! # Settings that are not supported

Some economic settings are only warned about.  They do switch checks on, and so decide which way an
update goes; yet an update without them comes to the same, less the warnings about them.  Each check
is compared with the same check where they are erased (`EconomicLimits.supportedOnly`); two sets of
limits that differ only in them are the same once they are erased
(`Evaluator.updateBooks_unsupported`). -/
set_option autoImplicit false

namespace WellControl

/-- Tags of the warnings about settings that have no other effect. -/
def unsupportedTags : List String :=
  ["NOT_SUPPORTING_MIN_RESERVOIR_FLUID_RATE", "NOT_SUPPORTING_MAX_GLR", "NOT_SUPPORTING_ENDRUN",
    "NOT_SUPPORTING_FOLLOWONWELL"]

def Record.isSupported (r : Record) : Bool := r.tag.all fun tag => decide (tag ∉ unsupportedTags)

namespace Journal

def supported (j : Journal) : Journal := j.filter Record.isSupported

@[simp] theorem supported_append (j k : Journal) :
    supported (j ++ k) = supported j ++ supported k :=
  List.filter_append j k

theorem supported_supported (j : Journal) : j.supported.supported = j.supported := by
  simp only [supported, List.filter_filter, Bool.and_self]

end Journal

structure SupportedAlike {α : Type} (before : Journal) (x y : Outcome α Unit × Books α) : Prop where
  outcome : y.1 = x.1
  closures : y.2.closures = x.2.closures
  reductions : y.2.reductions = x.2.reductions
  journal : ∃ added added', x.2.journal = before ++ added ∧ y.2.journal = before ++ added' ∧
    added'.supported = added.supported

namespace SupportedAlike
variable {α : Type} {before : Journal} {x y z : Outcome α Unit × Books α}

theorem symm (alike : SupportedAlike before x y) : SupportedAlike before y x := by
  obtain ⟨added, added', left, right, same⟩ := alike.journal
  exact ⟨alike.outcome.symm, alike.closures.symm, alike.reductions.symm,
    added', added, right, left, same.symm⟩

theorem trans (alike : SupportedAlike before x y) (alike' : SupportedAlike before y z) :
    SupportedAlike before x z := by
  obtain ⟨added, middle, left, mid, same⟩ := alike.journal
  obtain ⟨middle', added', mid', right, same'⟩ := alike'.journal
  obtain rfl := List.append_cancel_left (mid.symm.trans mid')
  exact ⟨alike'.outcome.trans alike.outcome, alike'.closures.trans alike.closures,
    alike'.reductions.trans alike.reductions, added, added', left, right, same'.trans same⟩

/-- What was added earlier is the same in both. -/
theorem earlier {start more : Journal} (alike : SupportedAlike (start ++ more) x y) :
    SupportedAlike start x y := by
  obtain ⟨added, added', left, right, same⟩ := alike.journal
  refine ⟨alike.outcome, alike.closures, alike.reductions, more ++ added, more ++ added', ?_, ?_,
    ?_⟩
  · rw [left, List.append_assoc]
  · rw [right, List.append_assoc]
  · rw [Journal.supported_append, Journal.supported_append, same]

theorem refl {added : Journal} (grown : x.2.journal = before ++ added) :
    SupportedAlike before x x :=
  ⟨rfl, rfl, rfl, added, added, grown, grown, rfl⟩

end SupportedAlike

variable {α : Type} [Scalar α]

def EconomicLimits.supportedOnly (l : EconomicLimits α) : EconomicLimits α :=
  { l with
    minReservoirFluidRate := none, maxGasLiquidRatio := none
    endRun := false, followonWell := none }

def Producer.supportedOnly (w : Producer α) : Producer α :=
  { w with limits := w.limits.supportedOnly }

/-- A physical check that does not look at the settings, and only adds to the journal. -/
structure PhysicalCheck.Indifferent (check : PhysicalCheck α) : Prop where
  settings : ∀ w l s time writeMessages b,
    check { w with limits := l } s time writeMessages b = check w s time writeMessages b
  journal : ∀ w s time writeMessages b,
    ∃ added, (check w s time writeMessages b).2.journal = b.journal ++ added

theorem lowPressureCheck_indifferent (reason : Outcome α ClosureReason) (bound : α) :
    PhysicalCheck.Indifferent (lowPressureCheck reason bound) where
  settings _ _ _ _ _ _ := rfl
  journal w s time writeMessages b := by
    unfold lowPressureCheck
    split
    · cases reason with
      | error f => exact ⟨[], (List.append_nil _).symm⟩
      | ok reason =>
        cases writeMessages with
        | false => exact ⟨[], (List.append_nil _).symm⟩
        | true => exact ⟨_, rfl⟩
    · exact ⟨[], (List.append_nil _).symm⟩

/-! ## The checks -/

namespace EconomicLimits
variable {l : EconomicLimits α}

theorem belowMinimum_of_off {least : Option (NonNegative α)} (off : isOn least = false)
    (phases : List Phase) (t : PhaseTable) (rates : List α) :
    belowMinimum least phases t rates = .ok false := by
  rw [belowMinimum, active?_of_off off]

/-- A check of the rates finds nothing if no limit on them is on. -/
theorem checkRates_of_off (off : l.anyRateLimit = false) (t : PhaseTable) (rates : List α) :
    l.checkRates t rates = .ok (false, []) := by
  simp only [anyRateLimit, Bool.or_eq_false_iff] at off
  obtain ⟨⟨⟨oil, gas⟩, liquid⟩, fluid⟩ := off
  simp only [checkRates, belowMinimum_of_off oil, belowMinimum_of_off gas,
    belowMinimum_of_off liquid, fluid, Bool.false_eq_true, if_false, Outcome.ok_bind,
    Outcome.pure_eq_ok]

theorem checkRates_supportedOnly (l : EconomicLimits α) (t : PhaseTable) (rates : List α) :
    l.supportedOnly.checkRates t rates =
      (l.checkRates t rates).map fun c => (c.1, c.2.supported) := by
  simp only [checkRates, supportedOnly]
  cases belowMinimum l.minOilRate [.oil] t rates with
  | error f => rfl
  | ok oil =>
    cases oil with
    | true => rfl
    | false =>
      cases belowMinimum l.minGasRate [.gas] t rates with
      | error f => rfl
      | ok gas =>
        cases gas with
        | true => rfl
        | false =>
          cases belowMinimum l.minLiquidRate [.oil, .water] t rates with
          | error f => rfl
          | ok liquid =>
            cases liquid with
            | true => rfl
            | false => cases isOn l.minReservoirFluidRate <;> rfl

end EconomicLimits

namespace RatioSource

theorem checkLimits_supportedOnly (r : RatioSource α) (l : EconomicLimits α)
    (kinds : List RatioKind) (p : RatioProgress α) :
    r.checkLimits l.supportedOnly kinds p = r.checkLimits l kinds p := by
  have same : ∀ k : RatioKind, k.limit l.supportedOnly = k.limit l := by
    intro k
    cases k <;> rfl
  induction kinds generalizing p with
  | nil => rfl
  | cons k rest ih => simp only [checkLimits, same, ih]

theorem checkRatios_supportedOnly (r : RatioSource α) (l : EconomicLimits α)
    (p : RatioProgress α) :
    r.checkRatios l.supportedOnly p =
      ((r.checkRatios l p).1, (r.checkRatios l p).2.1, (r.checkRatios l p).2.2.supported) := by
  simp only [checkRatios, checkLimits_supportedOnly]
  rcases r.checkLimits l RatioKind.checkingOrder p with ⟨_ | _, p⟩
  · rfl
  · dsimp only
    have noted : Journal.supported (if EconomicLimits.isOn l.maxGasLiquidRatio then
        [EconomicLimits.gasLiquidNotice] else []) = [] := by
      split <;> rfl
    split
    · rw [noted]
      rfl
    · rw [noted]
      rfl

end RatioSource

/-! ## Reviews -/

def Review.supported (r : Review α) : Review α := { r with notices := r.notices.supported }

namespace Producer
variable {source : RatioSource α} {notices : Journal}

theorem supported_closingNotices (w : Producer α) : w.closingNotices.supported = [] := by
  rw [closingNotices, Journal.supported_append, List.append_eq_nil_iff]
  constructor
  all_goals split <;> rfl

theorem supported_workoverVerdict (w : Producer α) (report : RatioReport α) :
    (w.workoverVerdict report).2.supported = (w.workoverVerdict report).2 := by
  rw [workoverVerdict]
  split <;> rfl

/-- The ratios may as well be checked when no limit on them is on: nothing is found. -/
theorem reviewRatios_eq (w : Producer α) (source : RatioSource α) (notices : Journal) :
    w.reviewRatios source notices =
      match source.checkRatios w.limits ⟨.fresh, 0⟩ with
      | (.error f, p, more) => ⟨.error f, notices ++ more, p.reductions⟩
      | (.ok (), p, more) =>
        if p.report.violated then
          ⟨.ok (w.workoverVerdict p.report).1, notices ++ more ++ (w.workoverVerdict p.report).2,
            p.reductions⟩
        else ⟨.ok .keep, notices ++ more, p.reductions⟩ := by
  unfold reviewRatios
  split
  · rfl
  · rename_i off
    rw [source.checkRatios_of_off (Bool.eq_false_iff.2 off)]
    simp

/-- So may the rates. -/
theorem reviewRates_eq (w : Producer α) (source : RatioSource α) :
    w.reviewRates source =
      match w.limits.checkRates source.table (w.reviewedRates source.state) with
      | .error f => ⟨.error f, [], 0⟩
      | .ok (true, notices) => ⟨.ok .closeForRate, notices ++ w.closingNotices, 0⟩
      | .ok (false, notices) => w.reviewRatios source notices := by
  unfold reviewRates
  split
  · rfl
  · rename_i off
    rw [EconomicLimits.checkRates_of_off (Bool.eq_false_iff.2 off)]

theorem review_eq (w : Producer α) (source : RatioSource α) (c : ClosureRecord α) :
    w.review source c =
      if c.exempts w.name source.state then ⟨.ok .keep, [], 0⟩ else w.reviewRates source := by
  rw [review]
  cases any : w.limits.anyLimit with
  | true => rw [Bool.not_true, Bool.or_false]
  | false =>
    rw [EconomicLimits.anyLimit, Bool.or_eq_false_iff] at any
    have nothing : w.reviewRates source = ⟨.ok .keep, [], 0⟩ := by
      rw [reviewRates, if_neg (Bool.eq_false_iff.1 any.1), reviewRatios,
        if_neg (Bool.eq_false_iff.1 any.2)]
    rw [nothing, ite_self, ite_self]

theorem reviewRatios_supportedOnly (w : Producer α) (source : RatioSource α) (notices : Journal) :
    w.supportedOnly.reviewRatios source notices.supported =
      (w.reviewRatios source notices).supported := by
  have checked := source.checkRatios_supportedOnly w.limits ⟨.fresh, 0⟩
  have same : ∀ report, w.supportedOnly.workoverVerdict report = w.workoverVerdict report :=
    fun _ => rfl
  have limits : w.supportedOnly.limits = w.limits.supportedOnly := rfl
  rw [reviewRatios_eq, reviewRatios_eq, limits, checked]
  rcases source.checkRatios w.limits ⟨.fresh, 0⟩ with ⟨_ | _, p, more⟩
  · simp only [Review.supported, Journal.supported_append]
  · dsimp only
    rw [same]
    split
    · simp only [Review.supported, Journal.supported_append, supported_workoverVerdict]
    · simp only [Review.supported, Journal.supported_append]

theorem reviewRates_supportedOnly (w : Producer α) (source : RatioSource α) :
    w.supportedOnly.reviewRates source = (w.reviewRates source).supported := by
  have checked := w.limits.checkRates_supportedOnly source.table (w.reviewedRates source.state)
  have limits : w.supportedOnly.limits = w.limits.supportedOnly := rfl
  have rates : w.supportedOnly.reviewedRates source.state = w.reviewedRates source.state := rfl
  have closing : w.supportedOnly.closingNotices = [] := rfl
  rw [reviewRates_eq, reviewRates_eq, limits, rates, checked, closing]
  rcases w.limits.checkRates source.table (w.reviewedRates source.state) with
    f | ⟨_ | _, notices⟩
  · rfl
  · exact w.reviewRatios_supportedOnly source notices
  · simp only [Except.map, Review.supported, Journal.supported_append, supported_closingNotices]

theorem review_supportedOnly (w : Producer α) (source : RatioSource α) (c : ClosureRecord α) :
    w.supportedOnly.review source c = (w.review source c).supported := by
  have name : w.supportedOnly.name = w.name := rfl
  rw [review_eq, review_eq, reviewRates_supportedOnly, name]
  split <;> rfl

end Producer

/-! ## Updates -/

theorem Producer.settle_supportedOnly (w : Producer α) (source : RatioSource α) (time : α)
    (writeMessages : Bool) (b : Books α) :
    SupportedAlike b.journal (w.settle source time writeMessages b)
      (w.supportedOnly.settle source time writeMessages b) := by
  have reviewed := w.review_supportedOnly source b.closures
  have same : ∀ v, w.supportedOnly.carryOut time b.closures v = w.carryOut time b.closures v :=
    fun _ => rfl
  cases verdict : (w.review source b.closures).verdict with
  | error f =>
    simp only [settle, reviewed, Review.supported, verdict]
    exact ⟨rfl, rfl, rfl, _, _, rfl, rfl, Journal.supported_supported _⟩
  | ok v =>
    simp only [settle, reviewed, Review.supported, verdict, same]
    refine ⟨rfl, rfl, rfl, _, _, List.append_assoc _ _ _, List.append_assoc _ _ _, ?_⟩
    rw [Journal.supported_append, Journal.supported_append, Journal.supported_supported]

namespace Evaluator

def withLimits (e : Evaluator α) (w : Producer α) (l : EconomicLimits α) : Evaluator α :=
  { e with well := .producer { w with limits := l } }

theorem updateBooks_supportedOnly {e : Evaluator α}
    (indifferent : ∀ check, e.physical = some check → PhysicalCheck.Indifferent check)
    (w : Producer α) (l : EconomicLimits α) (constants : Constants α) (s : WellState α) (time : α)
    (b : Books α) :
    SupportedAlike b.journal ((e.withLimits w l).updateBooks constants s time b)
      ((e.withLimits w l.supportedOnly).updateBooks constants s time b) := by
  simp only [updateBooks, withLimits]
  split
  · cases hook : e.physical with
    | none => exact Producer.settle_supportedOnly { w with limits := l } _ time _ b
    | some check =>
      obtain ⟨settings, journal⟩ := indifferent check hook
      dsimp only
      rw [settings w l, settings w l.supportedOnly]
      obtain ⟨added, grown⟩ := journal w s time e.writeMessages b
      rcases checked : check w s time e.writeMessages b with ⟨_ | _, b'⟩
      all_goals rw [checked] at grown
      · exact .refl grown
      · refine SupportedAlike.earlier (show SupportedAlike (b.journal ++ added) _ _ from ?_)
        rw [← grown]
        exact Producer.settle_supportedOnly { w with limits := l } _ time _ b'
  · exact .refl (List.append_nil _).symm

/-- Two sets of limits that differ only in settings that are not supported make no difference to an
update of a producer but for the warnings about these settings: it fails alike or not at all, and
leaves the same closures. -/
theorem updateBooks_unsupported {e : Evaluator α}
    (indifferent : ∀ check, e.physical = some check → PhysicalCheck.Indifferent check)
    {l l' : EconomicLimits α} (same : l'.supportedOnly = l.supportedOnly) (w : Producer α)
    (constants : Constants α) (s : WellState α) (time : α) (b : Books α) :
    SupportedAlike b.journal ((e.withLimits w l).updateBooks constants s time b)
      ((e.withLimits w l').updateBooks constants s time b) := by
  have erased := updateBooks_supportedOnly indifferent w l constants s time b
  have erased' := updateBooks_supportedOnly indifferent w l' constants s time b
  rw [same] at erased'
  exact erased.trans erased'.symm

def pretended : EconomicLimits ℚ :=
  { Producer.watered.limits with
    minReservoirFluidRate := some ⟨900, by decide⟩
    maxGasLiquidRatio := some ⟨1 / 3, by decide +kernel⟩
    endRun := true, followonWell := some "Q" }

theorem pretended_updateBooks :
    let e : Evaluator ℚ :=
      { Evaluator.plain (.producer .watered) with
        physical := some (lowPressureCheck (.ok .physical) 1) }
    let s : WellState ℚ := .flowing "P" (-60, -40, 0) [(-50, -10, 0), (-10, -30, 0)]
    let b : Books ℚ := ⟨.empty, [.info "old"], 0⟩
    let plain := (e.withLimits .watered Producer.watered.limits).updateBooks .standard s 3 b
    let warned := (e.withLimits .watered pretended).updateBooks .standard s 3 b
    plain.2.journal.map Record.tag = [none, none, none] ∧
    warned.2.journal.map Record.tag =
      [none, none, some "NOT_SUPPORTING_MIN_RESERVOIR_FLUID_RATE", some "NOT_SUPPORTING_MAX_GLR",
        none] ∧
    SupportedAlike b.journal plain warned := by
  intro e s b plain warned
  have indifferent : ∀ check, e.physical = some check → PhysicalCheck.Indifferent check := by
    intro check hook
    cases hook
    exact lowPressureCheck_indifferent _ _
  have same : pretended.supportedOnly = Producer.watered.limits.supportedOnly := rfl
  refine ⟨by decide +kernel, by decide +kernel, ?_⟩
  exact updateBooks_unsupported indifferent same .watered .standard s 3 b

end Evaluator
end WellControl
