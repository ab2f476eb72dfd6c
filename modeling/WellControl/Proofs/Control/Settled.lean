import WellControl.Proofs.Control.Switching

/-! # Wells that keep their controls

A check of the controls leaves a state as it is exactly when the well keeps its own limits, apart
from the one that is its control mode, and keeps within its share, unless it is under group control
(`Evaluator.controlSwitch_eq_none_iff`). -/
set_option autoImplicit false

namespace WellControl

def NoneExceeded {μ φ : Type} (enabled : μ → Bool) (current : μ) (exceeded : μ → Except φ Bool)
    (order : List μ) : Prop :=
  ∀ m ∈ order, enabled m = true → m ≠ current → exceeded m = .ok false

theorem firstExceeded_eq_none_iff {μ φ : Type} [DecidableEq μ] {enabled : μ → Bool} {current : μ}
    {exceeded : μ → Except φ Bool} {order : List μ} :
    firstExceeded enabled current exceeded order = .ok none ↔
      NoneExceeded enabled current exceeded order := by
  induction order with
  | nil => simp [firstExceeded, NoneExceeded]
  | cons head rest ih =>
    rw [NoneExceeded, List.forall_mem_cons, ← NoneExceeded, ← ih, firstExceeded]
    by_cases candidate : enabled head = true ∧ head ≠ current
    · obtain ⟨on, other⟩ := candidate
      rw [if_pos (by simp [on, other])]
      rcases exceeded head with _ | _ | _ <;> simp [on, other]
    · rw [if_neg (by simpa using candidate)]
      exact (and_iff_right fun on other => absurd ⟨on, other⟩ candidate).symm

variable {α : Type} [Scalar α]

namespace Evaluator
variable {e : Evaluator α} {setting : Setting α} {constants : Constants α}
  {states : WellStates α} {s : WellState α}

/-- The well exceeds none of its own limits but, at most, the one that is its control mode. -/
def KeepsLimits (e : Evaluator α) (constants : Constants α) (s : WellState α) : Prop :=
  match e.well with
  | .injector w =>
    NoneExceeded w.controls.has s.injectionControl (w.exceeds e.table s) InjectorMode.visitingOrder
  | .producer w =>
    NoneExceeded w.controls.has s.productionControl (w.exceeds e.table e.converter constants s)
      ProducerMode.visitingOrder

def WithinShare (e : Evaluator α) (setting : Setting α) (constants : Constants α)
    (states : WellStates α) (s : WellState α) (demand : Demand) : Prop :=
  ∃ group coefficients share,
    e.groupAndCoefficients setting constants = .ok (group, coefficients) ∧
    e.helper (e.shareQuery setting constants states s.surfaceRates group demand coefficients) =
      .ok share ∧
    share.exceeded = false

def KeepsShare (e : Evaluator α) (setting : Setting α) (constants : Constants α)
    (states : WellStates α) (s : WellState α) : Prop :=
  match e.well with
  | .injector w => s.injectionControl = .grup ∨
      ∃ phase, w.phase = .ok phase ∧ e.WithinShare setting constants states s (.injection phase)
  | .producer _ => s.productionControl = .grup ∨
      e.WithinShare setting constants states s .production

theorem individualSwitch_eq_none_iff :
    e.individualSwitch constants s = .ok none ↔ e.KeepsLimits constants s := by
  have nothing {μ : Type} (found : Outcome α (Option μ)) (f : μ → WellState α) :
      (found >>= fun mode => pure (mode.map f)) = .ok none ↔ found = .ok none := by
    rcases found with _ | _ | _ <;> simp
  cases well : e.well with
  | injector w =>
    simp only [individualSwitch, KeepsLimits, well, ← firstExceeded_eq_none_iff]
    exact nothing _ _
  | producer w =>
    simp only [individualSwitch, KeepsLimits, well, ← firstExceeded_eq_none_iff]
    exact nothing _ _

/-- The helper finds that the well keeps within its share when it is asked about the well. -/
theorem exists_withinShare_iff :
    (∃ d, e.well.demand = .ok d ∧ e.WithinShare setting constants states s d) ↔
      ∃ q share, e.groupQuestion setting constants states s = .ok q ∧ e.helper q = .ok share ∧
        share.exceeded = false := by
  constructor
  · rintro ⟨d, demanded, group, coefficients, share, found, answer, within⟩
    refine ⟨_, share, ?_, answer, within⟩
    exact groupQuestion_eq_ok.2 ⟨d, group, coefficients, demanded, found, rfl⟩
  · rintro ⟨q, share, asked, answer, within⟩
    obtain ⟨d, group, coefficients, demanded, found, rfl⟩ := groupQuestion_eq_ok.1 asked
    exact ⟨d, demanded, group, coefficients, share, found, answer, within⟩

theorem keepsShare_iff :
    e.KeepsShare setting constants states s ↔
      e.well.mode s = e.well.groupMode ∨
        ∃ q share, e.groupQuestion setting constants states s = .ok q ∧ e.helper q = .ok share ∧
          share.exceeded = false := by
  rw [← exists_withinShare_iff]
  cases well : e.well with
  | injector w =>
    cases phase : w.phase <;>
      simp [KeepsShare, well, Well.mode, Well.groupMode, Well.demand, phase]
  | producer w => simp [KeepsShare, well, Well.mode, Well.groupMode, Well.demand]

theorem groupSwitch_eq_none_iff :
    e.groupSwitch setting constants states s = .ok none ↔
      e.KeepsShare setting constants states s := by
  rw [keepsShare_iff]
  constructor
  · intro checked
    obtain ⟨under, _⟩ | ⟨_, q, share, asked, answer, result⟩ := groupSwitch_eq_ok checked
    · exact .inl under
    · refine .inr ⟨q, share, asked, answer, Bool.eq_false_iff.2 fun exceeded => ?_⟩
      rw [if_pos exceeded] at result
      cases result
  · intro keeps
    rw [groupSwitch_eq]
    by_cases under : e.well.mode s = e.well.groupMode
    · rw [if_pos under]
    · obtain ⟨q, share, asked, answer, within⟩ := keeps.resolve_left under
      rw [if_neg under, asked, Outcome.ok_bind, answer, Outcome.ok_bind,
        if_neg (Bool.eq_false_iff.1 within)]
      rfl

/-- A check of the controls changes nothing exactly when the well keeps them all. -/
theorem controlSwitch_eq_none_iff :
    e.controlSwitch setting constants states s = .ok none ↔
      e.KeepsLimits constants s ∧ e.KeepsShare setting constants states s := by
  rw [← individualSwitch_eq_none_iff, ← groupSwitch_eq_none_iff]
  unfold controlSwitch
  rcases e.individualSwitch constants s with _ | _ | _ <;> simp

end Evaluator
end WellControl
