import WellControl.Proofs.Control.Faults
import WellControl.Proofs.Division
import WellControl.Proofs.Economic.Faults
import WellControl.Proofs.Pass.Failure

/-! # Faults of a pass

A pass on arrays that fit one phase table fails only in the ways that are documented: a well without
a state, a refused check of the controls or a refused review (`Evaluator.Refusal`).  No array is too
short or of another shape, no quantity is asked of a mode that has none, and no division is by
zero. -/
set_option autoImplicit false

namespace WellControl
variable {α : Type} [Scalar α]

/-- Why a visit may fail in a pass that began with these states.  A review may see the state of its
well after checks of the controls. -/
inductive Evaluator.Refusal (e : Evaluator α) (setting : Setting α) (constants : Constants α)
    (states : WellStates α) : Fault α → Prop
  | lookup (missing : states.get? e.name = none) :
      Refusal e setting constants states (.unlisted e.name)
  | controls {fault : Fault α} (refused : e.ControlRefusal setting constants fault) :
      Refusal e setting constants states fault
  | review {w : Producer α} {s s' : WellState α} {fault : Fault α} (well : e.well = .producer w)
      (listed : states.get? e.name = some s) (kept : s.Kept s')
      (refused : w.ReviewRefusal (e.ratioSource constants s') fault) :
      Refusal e setting constants states fault

/-- Faults of arrays that do not fit, and of modes that limit no quantity. -/
def Fault.Internal : Fault α → Prop
  | .missingRate | .misaligned | .rateCount .. | .noProductionQuantity _
  | .noInjectionQuantity _ => True
  | _ => False

namespace Evaluator
variable {e : Evaluator α} {t : PhaseTable} {setting : Setting α} {constants : Constants α}
  {states states' : WellStates α} {fault : Fault α}

theorem Refusal.not_internal (refusal : e.Refusal setting constants states fault) :
    ¬ fault.Internal := by
  cases refusal with
  | lookup => exact not_false
  | controls refused => cases refused <;> exact not_false
  | review _ _ _ refused =>
    cases refused with
    | rates | rows => exact not_false
    | ratios _ cause => rcases cause with rfl | rfl <;> exact not_false

theorem Refusal.of_kept (kept : states.Kept states')
    (refusal : e.Refusal setting constants states' fault) :
    e.Refusal setting constants states fault := by
  cases refusal with
  | lookup missing => exact .lookup (kept.missing e.name missing)
  | controls refused => exact .controls refused
  | review well listed kept' refused =>
    obtain ⟨s, first, kept'', -⟩ := kept.listed e.name _ listed
    exact .review well first (kept''.trans kept') refused

theorem Refusal.of_failure (fitted : e.Fitted t) (noHook : e.physical = none) (fit : states.Fit t)
    (reductions : setting.reductions.Fit t) {time : α} {closures : ClosureRecord α}
    {left : Option (WellState α)}
    (failure : e.Failure setting constants time states closures fault left) :
    e.Refusal setting constants states fault := by
  cases failure with
  | lookup missing cause =>
    rw [cause]
    exact .lookup missing
  | controls found refused =>
    exact .controls (controlSwitch_eq_error fitted fit reductions (fit e.name _ found) refused)
  | @update s switched found checked refused =>
    obtain ⟨kept, shape⟩ := kept_of_controlSwitch checked
    have failed := refused ⟨closures, [], 0⟩ rfl
    rcases updateBooks_eq noHook constants (switched.getD s) with nothing | ⟨w, well, _, _, settles⟩
    · rw [nothing] at failed
      cases failed
    · rw [settles] at failed
      have fits := (fit e.name s found).of_kept kept shape
      rw [← fitted.table] at fits
      exact .review well found kept (Producer.settle_eq_error ⟨fits, fitted.serial⟩ failed)

end Evaluator

theorem visitAll_refused {es : List (Evaluator α)} {t : PhaseTable}
    (fitted : ∀ e ∈ es, e.Fitted t) (noHook : ∀ e ∈ es, e.physical = none)
    {setting : Setting α} (reductions : setting.reductions.Fit t) {w after : World α}
    (fit : w.states.Fit t) {time : α} {fault : Fault α}
    (failed : visitAll setting time es w = (.error fault, after)) :
    ∃ e ∈ es, e.Refusal setting w.constants w.states fault := by
  obtain ⟨visited, e, rest, report, middle, split, passed, stopped⟩ := visitAll_error failed
  have member : e ∈ es := by
    rw [split]
    exact List.mem_append_right _ List.mem_cons_self
  have kept := kept_visitAll setting time visited w
  rw [passed] at kept
  obtain ⟨-, -, failure⟩ := Evaluator.visit_error (noHook e member) stopped
  rw [constants_of_visitAll passed] at failure
  have refusal := Evaluator.Refusal.of_failure (fitted e member) (noHook e member) (kept.fit fit)
    reductions failure
  exact ⟨e, member, refusal.of_kept kept⟩

/-- A pass on arrays that fit one phase table fails only where one of its evaluators is refused for
a documented reason. -/
theorem Pass.run_refused {p : Pass ℚ} {t : PhaseTable} (fitted : ∀ e ∈ p.evaluators, e.Fitted t)
    (noHook : p.NoHook) (reductions : p.setting.reductions.Fit t) {w : World ℚ}
    (fit : w.states.Fit t) :
    (∀ fault after, p.run w = (.error fault, after) →
      (∃ e ∈ p.evaluators, e.Refusal p.setting p.config.constants w.states fault) ∧
        ¬ fault.Internal) ∧
    DivisionsDefined := by
  refine ⟨fun fault after failed => ?_, divisionsDefined⟩
  obtain ⟨last, ran, -⟩ := run_eq_error.1 failed
  obtain ⟨e, member, refusal⟩ := visitAll_refused fitted noHook reductions (w := p.start w) fit ran
  exact ⟨⟨e, member, refusal⟩, refusal.not_internal⟩

def FormationVolume.doubled : FormationVolume ℚ where
  table := .blackOil
  regions := .empty
  fallback := some ⟨⟨2, by decide⟩, ⟨2, by decide⟩, ⟨2, by decide⟩, ⟨0, by decide⟩, ⟨0, by decide⟩,
    by decide +kernel⟩

def Pass.compared : Pass ℚ where
  config := .standard
  setting := .ofGroup ⟨"G", none, none, .empty⟩ []
  time := 0
  evaluators :=
    [{ Evaluator.plain (.producer
        { Producer.plain "P" "G" with
          connections := twoConnections
          distinct := twoConnections_distinct
          limits := { EconomicLimits.halfWater with workover := .con } }) with
      converter := FormationVolume.doubled.converter }]
  ownJournal := false

def World.partly : World ℚ :=
  { World.ofStates [] with
    states := Catalog.empty.put "P"
      { WellState.flowing "P" (-9, -1, 0) [(-9, -1, 0)] with
        potentials := some (.ofList [-9, -1, 0]) } }

theorem Pass.compared_refused :
    ((∃ e ∈ compared.evaluators, e.Refusal compared.setting compared.config.constants
        World.partly.states (.missingPerforations "P" 1 2)) ∧
      ¬ (Fault.missingPerforations "P" 1 2 : Fault ℚ).Internal) ∧
    DivisionsDefined := by
  have fitted : ∀ e ∈ compared.evaluators, e.Fitted .blackOil := by
    intro e member
    obtain rfl := List.mem_singleton.1 member
    exact ⟨rfl, ⟨.doubled, rfl, rfl⟩, rfl, fun _ _ => rfl⟩
  have noHook : compared.NoHook := by
    intro e member
    obtain rfl := List.mem_singleton.1 member
    rfl
  have reductions : compared.setting.reductions.Fit .blackOil :=
    ⟨fun _ _ given => (by cases given), fun _ _ given => (by cases given)⟩
  have fit : World.partly.states.Fit .blackOil := by
    intro name s found
    rw [World.partly, Catalog.get?_put] at found
    split at found
    · cases found
      exact ⟨rfl, rfl, ⟨_, rfl, rfl⟩, ⟨_, rfl⟩⟩
    · cases found
  have failed : (compared.run World.partly).1 = .error (.missingPerforations "P" 1 2) := by
    decide +kernel
  obtain ⟨refused, divisions⟩ := run_refused fitted noHook reductions fit
  exact ⟨refused _ _ (Prod.ext failed rfl), divisions⟩

end WellControl
