import WellControl.Proofs.Control.Faults
import WellControl.Proofs.Control.Settled
import WellControl.Proofs.Plain

/-! # Injectors of mixtures

A check of the controls of an injector asks which phase it injects at two places, among the well's
own limits and again before its group is looked up.  A mixture has no such phase, so a check of one
fails exactly if it comes to one of these places (`Injector.AsksPhase`), whatever the group and the
conversion are.  A check of an injector of one phase never fails like this, unless a conversion or a
group helper of another making does (`Evaluator.injectionFaults`). -/
set_option autoImplicit false

namespace WellControl
open Outcome (FailsOnly)

variable {α : Type}

/-- A fault that is not about what an injector injects. -/
def Fault.Elsewhere (fault : Fault α) : Prop := fault.kind ≠ .injector

/-! ## What can be read without asking what is injected -/

section Reading

theorem PhaseTable.failsOnly_position (t : PhaseTable) (p : Phase) :
    FailsOnly Fault.Elsewhere (t.position p : Outcome α Nat) := by
  unfold position
  split
  · exact .ok _
  · exact .error nofun

theorem PhaseTable.failsOnly_rate (t : PhaseTable) (rates : List α) (p : Phase) :
    FailsOnly Fault.Elsewhere (t.rate rates p) := by
  refine (t.failsOnly_position p).bind fun i _ => ?_
  split
  · exact .ok _
  · exact .error nofun

variable [Scalar α]

theorem PhaseTable.failsOnly_rateOrZero (t : PhaseTable) (rates : List α) (p : Phase) :
    FailsOnly Fault.Elsewhere (t.rateOrZero rates p) := by
  unfold rateOrZero
  split
  · exact t.failsOnly_rate rates p
  · exact .ok _

theorem PhaseTable.failsOnly_total (t : PhaseTable) (rates : List α) :
    FailsOnly Fault.Elsewhere (t.total rates) :=
  (FailsOnly.mapM fun p _ => t.failsOnly_rateOrZero rates p).bind fun _ _ => .ok _

theorem failsOnly_weighted (coefficients : List α) (rates : Grid α) :
    FailsOnly Fault.Elsewhere (weighted coefficients rates) := by
  unfold weighted
  split
  · exact .ok _
  · exact .error nofun

theorem failsOnly_productionQuantity (mode : GroupProductionMode) (t : PhaseTable)
    (coefficients : List α) :
    FailsOnly Fault.Elsewhere (productionQuantity mode t coefficients) := by
  cases mode with
  | none | fld => exact .error nofun
  | orat | wrat | grat | lrat | resv => exact .ok _

theorem failsOnly_injectionQuantity (mode : GroupInjectionMode) (p : Phase) (t : PhaseTable)
    (coefficients : List α) :
    FailsOnly Fault.Elsewhere (injectionQuantity mode p t coefficients) := by
  refine (t.failsOnly_position p).bind fun _ _ => ?_
  cases mode with
  | none | fld => exact .error nofun
  | rate | resv => exact .ok _

theorem failsOnly_produced {mode : GroupProductionMode} {t : PhaseTable} {coefficients : List α}
    {quantity : RateQuantity α}
    (measured : productionQuantity mode t coefficients = .ok quantity) (rates : Grid α) :
    FailsOnly Fault.Elsewhere (quantity rates) := by
  cases mode with
  | none | fld => cases measured
  | orat | wrat | grat =>
    cases measured
    exact (t.failsOnly_rateOrZero rates.line _).bind fun _ _ => .ok _
  | lrat =>
    cases measured
    refine (t.failsOnly_rateOrZero rates.line .oil).bind fun _ _ => ?_
    exact (t.failsOnly_rateOrZero rates.line .water).bind fun _ _ => .ok _
  | resv =>
    cases measured
    exact (failsOnly_weighted coefficients rates).bind fun _ _ => .ok _

theorem failsOnly_injected {mode : GroupInjectionMode} {p : Phase} {t : PhaseTable}
    {coefficients : List α} {quantity : RateQuantity α}
    (measured : injectionQuantity mode p t coefficients = .ok quantity) (rates : Grid α) :
    FailsOnly Fault.Elsewhere (quantity rates) := by
  obtain ⟨_, _, measured⟩ := Outcome.bind_eq_ok.1 measured
  cases mode with
  | none | fld => cases measured
  | rate =>
    cases measured
    exact t.failsOnly_rate rates.line p
  | resv =>
    cases measured
    refine (t.failsOnly_rate rates.line p).bind fun _ _ => ?_
    exact (t.failsOnly_rate coefficients p).bind fun _ _ => .ok _

theorem Schedule.failsOnly_group (schedule : Schedule α) (name : String) (step : Int) :
    FailsOnly Fault.Elsewhere (schedule.group name step) := by
  intro fault failed
  obtain ⟨-, rfl⟩ := Schedule.group_eq_error failed
  exact nofun

theorem WellState.failsOnly_rescale (s : WellState α) (factor : α) :
    FailsOnly Fault.Elsewhere (s.rescale factor) := by
  unfold rescale
  split
  · exact .error nofun
  · exact .ok _

theorem FormationVolume.failsOnly_coefficients (c : FormationVolume α) (fip pvt : Int) :
    FailsOnly Fault.Elsewhere (c.coefficients fip pvt) := by
  have region : FailsOnly Fault.Elsewhere (c.region fip pvt) := by
    intro fault failed
    obtain ⟨-, rfl⟩ := region_eq_error failed
    exact nofun
  exact region.bind fun _ _ => .ok _

namespace ShareQuery
variable {q : ShareQuery α} {quantity : RateQuantity α}

theorem failsOnly_guideRate (reads : ∀ rates, FailsOnly Fault.Elsewhere (quantity rates))
    (name : String) : FailsOnly Fault.Elsewhere (q.guideRate quantity name) := by
  unfold guideRate
  split
  · exact .ok _
  · exact (reads _).bind fun _ _ => .ok _
  · exact .ok _

theorem failsOnly_settle (reads : ∀ rates, FailsOnly Fault.Elsewhere (quantity rates))
    (target : α) (off : List α) : FailsOnly Fault.Elsewhere (q.settle target quantity off) := by
  have fraction : FailsOnly Fault.Elsewhere (q.fraction quantity) := by
    refine (FailsOnly.mapM fun w _ => failsOnly_guideRate reads w.name).bind fun weights _ => ?_
    dsimp only
    split
    · exact .ok _
    · exact (failsOnly_guideRate reads q.well).bind fun _ _ => .ok _
  refine (reads (.ofList off)).bind fun _ _ => fraction.bind fun _ _ => ?_
  exact (reads q.rates).bind fun _ _ => .ok _

theorem failsOnly_byGuideRate (q : ShareQuery α) :
    FailsOnly Fault.Elsewhere (byGuideRate q) := by
  unfold byGuideRate
  split
  · split
    · exact .ok _
    · split
      · exact .ok _
      · refine (failsOnly_productionQuantity _ _ _).bind fun quantity measured => ?_
        exact failsOnly_settle (failsOnly_produced measured) _ _
  · split
    · exact .ok _
    · split
      · exact .ok _
      · refine (failsOnly_injectionQuantity _ _ _ _).bind fun quantity measured => ?_
        exact failsOnly_settle (failsOnly_injected measured) _ _

end ShareQuery
end Reading

variable [Scalar α]

/-! ## Where the phase is asked for -/

namespace Injector
variable {w : Injector α} {t : PhaseTable} {s : WellState α}

def Visits (w : Injector α) (s : WellState α) (m : InjectorMode) : Prop :=
  w.controls.has m = true ∧ m ≠ s.injectionControl

/-- A check comes to a place where it asks for the phase: the limit of the bottom-hole pressure does
not switch the well, and then its rate is looked at, or no further limit switches it and it is not
under group control.  A check does not get past reservoir rates whose total cannot be read. -/
def AsksPhase (w : Injector α) (t : PhaseTable) (s : WellState α) : Prop :=
  ¬ (w.Visits s .bhp ∧ w.controls.bhpLimit.val < s.bhp) ∧
    (w.Visits s .rate ∨
      (w.Visits s .resv →
        ∃ total, t.total s.reservoir = .ok total ∧ ¬ w.controls.reservoirRate.val < total) ∧
      ¬ (w.Visits s .thp ∧ w.controls.thpLimit.val < s.thp) ∧
      s.injectionControl ≠ .grup)

theorem phase_of_mixture (fluid : w.controls.fluid = .multi) :
    w.phase = .error (.injectedPhase w.name .multi) := by
  simp only [phase, fluid, InjectedFluid.phase?]

theorem exists_phase (fluid : w.controls.fluid ≠ .multi) : ∃ p, w.phase = .ok p := by
  cases found : w.phase with
  | error fault => exact absurd (phase_eq_error found).1 fluid
  | ok p => exact ⟨p, rfl⟩

/-- A limit of an injector of one phase can be looked at. -/
theorem failsOnly_exceeds (fluid : w.controls.fluid ≠ .multi) (t : PhaseTable) (s : WellState α)
    (m : InjectorMode) : FailsOnly Fault.Elsewhere (w.exceeds t s m) := by
  cases m with
  | none | bhp | thp | grup => exact .ok _
  | rate =>
    obtain ⟨p, found⟩ := exists_phase fluid
    rw [exceeds, found, Outcome.ok_bind]
    exact (t.failsOnly_rateOrZero s.surface p).bind fun _ _ => .ok _
  | resv => exact (t.failsOnly_total s.reservoir).bind fun _ _ => .ok _

end Injector

/-- The first mode of a list is looked at, and fails, or it does not stop the search. -/
theorem firstExceeded_cons_eq_error_iff {μ φ : Type} [DecidableEq μ] {enabled : μ → Bool}
    {current head : μ} {exceeded : μ → Except φ Bool} {rest : List μ} {fault : φ} :
    firstExceeded enabled current exceeded (head :: rest) = .error fault ↔
      (enabled head = true ∧ head ≠ current ∧ exceeded head = .error fault) ∨
        ((enabled head = true → head ≠ current → exceeded head = .ok false) ∧
          firstExceeded enabled current exceeded rest = .error fault) := by
  rw [firstExceeded]
  by_cases candidate : enabled head = true ∧ head ≠ current
  · obtain ⟨on, other⟩ := candidate
    rw [if_pos (by simp [on, other])]
    rcases exceeded head with _ | _ | _ <;> simp [on, other]
  · rw [if_neg (by simpa using candidate)]
    simp only [not_and, not_not] at candidate
    constructor
    · intro later
      exact .inr ⟨fun on other => absurd (candidate on) other, later⟩
    · rintro (⟨on, other, _⟩ | ⟨_, later⟩)
      · exact absurd (candidate on) other
      · exact later

namespace Injector
variable {w : Injector α} {t : PhaseTable} {s : WellState α} {fault : Fault α}

/-- The limits of an injector of a mixture fail for its phase where its rate is looked at, which is
after its bottom-hole pressure. -/
theorem firstExceeded_mixture_eq_error_iff (fluid : w.controls.fluid = .multi)
    (kind : fault.kind = .injector) :
    firstExceeded w.controls.has s.injectionControl (w.exceeds t s) InjectorMode.visitingOrder =
        .error fault ↔
      ¬ (w.Visits s .bhp ∧ w.controls.bhpLimit.val < s.bhp) ∧ w.Visits s .rate ∧
        fault = .injectedPhase w.name .multi := by
  have later : firstExceeded w.controls.has s.injectionControl (w.exceeds t s) [.resv, .thp] ≠
      .error fault := by
    intro failed
    obtain ⟨m, listed, refused⟩ := firstExceeded_eq_error failed
    rcases List.mem_pair.1 listed with rfl | rfl
    · rcases Outcome.bind_eq_error.1 refused with refused | ⟨_, -, refused⟩
      · exact t.failsOnly_total s.reservoir fault refused kind
      · cases refused
    · cases refused
  have rate : w.exceeds t s .rate = .error (.injectedPhase w.name .multi) := by
    rw [exceeds, phase_of_mixture fluid]
    rfl
  have pressure : w.exceeds t s .bhp = .ok (decide (w.controls.bhpLimit.val < s.bhp)) := rfl
  rw [InjectorMode.visitingOrder, firstExceeded_cons_eq_error_iff, firstExceeded_cons_eq_error_iff]
  simp only [rate, pressure, later, Visits, reduceCtorEq, and_false, or_false, false_or,
    Except.ok.injEq, Except.error.injEq, decide_eq_false_iff_not, not_and, and_assoc,
    @eq_comm _ (Fault.injectedPhase w.name .multi)]

theorem firstExceeded_mixture_eq_none_iff (fluid : w.controls.fluid = .multi) :
    firstExceeded w.controls.has s.injectionControl (w.exceeds t s) InjectorMode.visitingOrder =
        .ok none ↔
      ¬ (w.Visits s .bhp ∧ w.controls.bhpLimit.val < s.bhp) ∧ ¬ w.Visits s .rate ∧
        (w.Visits s .resv →
          ∃ total, t.total s.reservoir = .ok total ∧ ¬ w.controls.reservoirRate.val < total) ∧
        ¬ (w.Visits s .thp ∧ w.controls.thpLimit.val < s.thp) := by
  rw [firstExceeded_eq_none_iff]
  simp only [NoneExceeded, InjectorMode.visitingOrder, List.forall_mem_cons, exceeds,
    phase_of_mixture fluid, Outcome.error_bind, Outcome.bind_eq_ok, Outcome.pure_eq_ok,
    reduceCtorEq, Except.ok.injEq, decide_eq_false_iff_not, Visits, not_and, and_imp,
    List.not_mem_nil, false_imp_iff, implies_true, and_true, imp_false]

end Injector

namespace Evaluator
variable {e : Evaluator α} {w : Injector α} {setting : Setting α} {constants : Constants α}
  {states : WellStates α} {s : WellState α} {fault : Fault α}

theorem individualSwitch_injector (well : e.well = .injector w) (constants : Constants α)
    (s : WellState α) :
    e.individualSwitch constants s =
      firstExceeded w.controls.has s.injectionControl (w.exceeds e.table s)
        InjectorMode.visitingOrder >>= fun mode =>
          .ok (mode.map fun m => { s with injectionControl := m }) := by
  simp only [individualSwitch, well]
  rfl

/-! ## Injectors of one phase -/

/-- The conversion or the group helper itself failed for what an injector injects. -/
def FaultyPart (e : Evaluator α) (fault : Fault α) : Prop :=
  (∃ fip pvt, e.converter.coefficients fip pvt = .error fault) ∨ ∃ q, e.helper q = .error fault

theorem failsOnly_groupSwitch {p : Phase} (well : e.well = .injector w) (found : w.phase = .ok p)
    (setting : Setting α) (constants : Constants α) (states : WellStates α) (s : WellState α) :
    FailsOnly (fun fault => fault.kind = .injector → e.FaultyPart fault)
      (e.groupSwitch setting constants states s) := by
  have elsewhere {β : Type} {x : Outcome α β} (own : FailsOnly Fault.Elsewhere x) :
      FailsOnly (fun fault => fault.kind = .injector → e.FaultyPart fault) x :=
    fun fault failed kind => absurd kind (own fault failed)
  have grouped : FailsOnly (fun fault => fault.kind = .injector → e.FaultyPart fault)
      (e.groupAndCoefficients setting constants) := by
    refine (elsewhere (setting.schedule.failsOnly_group _ _)).bind fun group _ => ?_
    exact .bind (fun fault failed _ => .inl ⟨_, _, failed⟩) fun _ _ => .ok _
  simp only [groupSwitch, well, found, Outcome.ok_bind]
  split
  · exact .ok none
  · refine grouped.bind fun _ _ => .bind (fun fault failed _ => .inr ⟨_, failed⟩) fun share _ => ?_
    split
    · exact (elsewhere (s.failsOnly_rescale share.factor)).bind fun _ _ => .ok _
    · exact .ok none

theorem faultyPart_of_single (well : e.well = .injector w) (fluid : w.controls.fluid ≠ .multi)
    (failed : e.controlSwitch setting constants states s = .error fault)
    (kind : fault.kind = .injector) : e.FaultyPart fault := by
  rcases Outcome.bind_eq_error.1 failed with failed | ⟨switched, -, failed⟩
  · rw [individualSwitch_injector well] at failed
    rcases Outcome.bind_eq_error.1 failed with failed | ⟨_, -, failed⟩
    · obtain ⟨m, -, refused⟩ := firstExceeded_eq_error failed
      exact absurd kind (Injector.failsOnly_exceeds fluid e.table s m fault refused)
    · cases failed
  · cases switched with
    | some s' => cases failed
    | none =>
      obtain ⟨p, found⟩ := Injector.exists_phase fluid
      exact failsOnly_groupSwitch well found setting constants states s fault failed kind

/-- Formation volumes and guide rates never fail for what an injector injects. -/
theorem not_faultyPart {c : FormationVolume α} (converter : e.converter = c.converter)
    (helper : e.helper = ShareQuery.byGuideRate) (kind : fault.kind = .injector) :
    ¬ e.FaultyPart fault := by
  rintro (⟨fip, pvt, failed⟩ | ⟨q, failed⟩)
  · rw [converter] at failed
    exact c.failsOnly_coefficients fip pvt fault failed kind
  · rw [helper] at failed
    exact q.failsOnly_byGuideRate fault failed kind

/-! ## Injectors of mixtures -/

/-- The group of an injector of a mixture is never looked up. -/
theorem groupSwitch_of_mixture (well : e.well = .injector w) (fluid : w.controls.fluid = .multi)
    (setting : Setting α) (constants : Constants α) (states : WellStates α) (s : WellState α) :
    e.groupSwitch setting constants states s =
      if s.injectionControl = .grup then .ok none else .error (.injectedPhase w.name .multi) := by
  simp only [groupSwitch, well, Injector.phase_of_mixture fluid, Outcome.error_bind]

theorem controlSwitch_mixture_eq_error_iff (well : e.well = .injector w)
    (fluid : w.controls.fluid = .multi) (kind : fault.kind = .injector) :
    e.controlSwitch setting constants states s = .error fault ↔
      w.AsksPhase e.table s ∧ fault = .injectedPhase w.name .multi := by
  have own : e.individualSwitch constants s = .error fault ↔
      firstExceeded w.controls.has s.injectionControl (w.exceeds e.table s)
        InjectorMode.visitingOrder = .error fault := by
    rw [individualSwitch_injector well, Outcome.bind_eq_error]
    simp only [reduceCtorEq, and_false, exists_false, or_false]
  have kept : e.individualSwitch constants s = .ok none ↔
      firstExceeded w.controls.has s.injectionControl (w.exceeds e.table s)
        InjectorMode.visitingOrder = .ok none := by
    rw [individualSwitch_injector well, Outcome.bind_eq_ok]
    simp only [Except.ok.injEq, Option.map_eq_none_iff, exists_eq_right]
  have group : e.groupSwitch setting constants states s = .error fault ↔
      s.injectionControl ≠ .grup ∧ fault = .injectedPhase w.name .multi := by
    rw [groupSwitch_of_mixture well fluid]
    by_cases under : s.injectionControl = .grup
    · simp [under]
    · simp [under, eq_comm]
  have split : e.controlSwitch setting constants states s = .error fault ↔
      e.individualSwitch constants s = .error fault ∨
        e.individualSwitch constants s = .ok none ∧
          e.groupSwitch setting constants states s = .error fault := by
    rw [controlSwitch, Outcome.bind_eq_error, Option.exists]
    simp
  rw [split, own, kept, group, Injector.firstExceeded_mixture_eq_error_iff fluid kind,
    Injector.firstExceeded_mixture_eq_none_iff fluid]
  constructor
  · rintro (⟨pressure, rate, told⟩ | ⟨⟨pressure, -, reservoir, head⟩, free, told⟩)
    · exact ⟨⟨pressure, .inl rate⟩, told⟩
    · exact ⟨⟨pressure, .inr ⟨reservoir, head, free⟩⟩, told⟩
  · rintro ⟨⟨pressure, rate | ⟨reservoir, head, free⟩⟩, told⟩
    · exact .inl ⟨pressure, rate, told⟩
    · by_cases rate : w.Visits s .rate
      · exact .inl ⟨pressure, rate, told⟩
      · exact .inr ⟨⟨pressure, rate, reservoir, head⟩, free, told⟩

/-- A check of an injector of a mixture does the same whatever the group, the conversion and the
states of other wells are. -/
theorem controlSwitch_of_mixture (well : e.well = .injector w) (fluid : w.controls.fluid = .multi)
    {e' : Evaluator α} (sameWell : e'.well = e.well) (sameTable : e'.table = e.table)
    (setting setting' : Setting α) (constants constants' : Constants α)
    (states states' : WellStates α) (s : WellState α) :
    e'.controlSwitch setting' constants' states' s =
      e.controlSwitch setting constants states s := by
  have well' : e'.well = .injector w := sameWell.trans well
  rw [controlSwitch, controlSwitch, individualSwitch_injector well, individualSwitch_injector well',
    groupSwitch_of_mixture well fluid, groupSwitch_of_mixture well' fluid, sameTable]

structure InjectionFaults (e : Evaluator α) (w : Injector α) : Prop where
  /-- Of a single phase, it is the conversion or the group helper that failed. -/
  single : w.controls.fluid ≠ .multi → ∀ setting constants states s fault,
    e.controlSwitch setting constants states s = .error fault → fault.kind = .injector →
      e.FaultyPart fault
  /-- Formation volumes and guide rates do not fail so. -/
  never : w.controls.fluid ≠ .multi → (∃ c : FormationVolume α, e.converter = c.converter) →
    e.helper = ShareQuery.byGuideRate → ∀ setting constants states s fault,
      e.controlSwitch setting constants states s = .error fault → fault.kind ≠ .injector
  /-- Of a mixture, the phase was asked for. -/
  mixture : w.controls.fluid = .multi → ∀ setting constants states s,
    (∃ fault, e.controlSwitch setting constants states s = .error fault ∧
      fault.kind = .injector) ↔ w.AsksPhase e.table s
  /-- The fault names the well, and no other fault hides it. -/
  asked : w.controls.fluid = .multi → ∀ s, w.AsksPhase e.table s → ∀ setting constants states,
    e.controlSwitch setting constants states s = .error (.injectedPhase w.name .multi)
  /-- The group of a mixture is not looked up at all. -/
  groupless : w.controls.fluid = .multi → ∀ e' : Evaluator α, e'.well = e.well →
    e'.table = e.table → ∀ setting setting' constants constants' states states' s,
      e'.controlSwitch setting' constants' states' s = e.controlSwitch setting constants states s

theorem injectionFaults (well : e.well = .injector w) : e.InjectionFaults w where
  single fluid _ _ _ _ _ failed kind := faultyPart_of_single well fluid failed kind
  never := by
    rintro fluid ⟨c, converter⟩ helper setting constants states s fault failed kind
    exact not_faultyPart converter helper kind (faultyPart_of_single well fluid failed kind)
  mixture fluid setting constants states s := by
    constructor
    · rintro ⟨fault, failed, kind⟩
      exact ((controlSwitch_mixture_eq_error_iff well fluid kind).1 failed).1
    · intro asks
      exact ⟨_, (controlSwitch_mixture_eq_error_iff well fluid rfl).2 ⟨asks, rfl⟩, rfl⟩
  asked fluid _ asks _ _ _ :=
    (controlSwitch_mixture_eq_error_iff well fluid rfl).2 ⟨asks, rfl⟩
  groupless fluid _ sameWell sameTable :=
    controlSwitch_of_mixture well fluid sameWell sameTable

end Evaluator

def Injector.mixing : Injector ℚ :=
  { WellHeader.plain "I" "G" with
    controls := { InjectionControls.free .multi with modes := [.bhp, .rate, .resv, .thp] } }

theorem mixing_faults :
    let e : Evaluator ℚ :=
      { Evaluator.plain (.injector .mixing) with
        converter := (⟨.blackOil, .empty, none⟩ : FormationVolume ℚ).converter }
    let setting : Setting ℚ := .ofGroup ⟨"H", none, none, .empty⟩ []
    let s : WellState ℚ := { WellState.flowing "I" (0, 0, 0) [] with injectionControl := .rate }
    setting.schedule.group? "G" e.step = none ∧
      (∀ fip pvt, e.converter.coefficients fip pvt = .error (.undefinedRegion fip pvt)) ∧
      e.InjectionFaults .mixing ∧
      e.controlSwitch setting .standard .empty s = .error (.injectedPhase "I" .multi) := by
  intro e setting s
  have faults : e.InjectionFaults .mixing := Evaluator.injectionFaults rfl
  have asks : Injector.mixing.AsksPhase e.table s := by
    refine ⟨fun switches => ?_, .inr ⟨fun _ => ⟨0, by decide +kernel, by decide +kernel⟩, ?_, ?_⟩⟩
    · exact absurd switches.2 (by decide +kernel)
    · exact fun switches => absurd switches.2 (by decide +kernel)
    · decide
  exact ⟨by decide +kernel, fun _ _ => rfl, faults,
    faults.asked rfl s asks setting .standard .empty⟩

end WellControl
