import WellControl.Proofs.Control.Correspondence
import WellControl.Proofs.Group.Standing
import WellControl.Proofs.Pass.Faults

/-! # Phases that are left out

A model may leave out a phase or carry it without any rate.  If nothing goes over between oil and
gas, a check of the controls answers the same in both models (`Evaluator.answers_extended`), and no
well is ever put on a limit of the rates of phases that the model leaves out
(`Evaluator.not_onInactive_of_controlSwitch`). -/
set_option autoImplicit false

namespace WellControl
open PhaseTable

variable {t t' : PhaseTable}

/-- An array over more phases holds the same rates if it is zero for the phases that were left
out. -/
theorem PhaseTable.sameRates_iff_of_subset (sub : t.active ⊆ t'.active) {xs ys : List ℚ} :
    SameRates t t' xs ys ↔ xs.length = t.size ∧ ys = t'.active.map (t.entry xs) := by
  constructor
  · intro same
    exact ⟨same.fits, by rw [← same.entry, map_entry same.fits']⟩
  · rintro ⟨fits, rfl⟩
    have both : ∀ p, t.entry xs p ≠ 0 → (p ∈ t.active ↔ p ∈ t'.active) := by
      intro p flows
      have active := not_imp_comm.1 (entry_of_inactive xs) flows
      exact iff_of_true active (sub active)
    have extended := sameRates_map_active both
    rwa [map_entry fits] at extended

namespace FormationVolume
variable {c c' : FormationVolume ℚ}

def NoExchange (c : FormationVolume ℚ) : Prop :=
  ∀ fip pvt r, c.region fip pvt = .ok r → r.dissolved.val = 0 ∧ r.vaporized.val = 0

theorem sameExchange_of_noExchange (apart : c.NoExchange) : c.SameExchange c' := by
  constructor
  · intro fip pvt r found
    rw [dissolved, dissolved, (apart fip pvt r found).1, ite_self, ite_self]
  · intro fip pvt r found
    rw [vaporized, vaporized, (apart fip pvt r found).2, ite_self, ite_self]

end FormationVolume

def Evaluator.over (e : Evaluator ℚ) (c : FormationVolume ℚ) : Evaluator ℚ :=
  { e with table := c.table, converter := c.converter, helper := ShareQuery.byGuideRate }

/-! ## Limits of inactive phases -/

def ProducerMode.limitedPhases : ProducerMode → List Phase
  | .orat => [.oil]
  | .wrat => [.water]
  | .grat => [.gas]
  | .lrat => [.oil, .water]
  | .none | .bhp | .resv | .thp | .grup => []

namespace Well

def limitedPhases : Well ℚ → WellState ℚ → List Phase
  | .producer _, s => s.productionControl.limitedPhases
  | .injector w, s => if s.injectionControl = .rate then w.controls.fluid.phase?.toList else []

/-- The well is on a limit of surface rates, all of them of phases that are not active. -/
def OnInactive (w : Well ℚ) (t : PhaseTable) (s : WellState ℚ) : Prop :=
  w.limitedPhases s ≠ [] ∧ ∀ p ∈ w.limitedPhases s, p ∉ t.active

end Well

theorem PhaseTable.rateOrZero_of_inactive {p : Phase} (inactive : p ∉ t.active) (rates : List ℚ) :
    t.rateOrZero rates p = .ok 0 :=
  if_neg (mt has_iff.1 inactive)

/-- A limit on the rate of phases none of which is active is not exceeded. -/
theorem Producer.exceeds_of_inactive (w : Producer ℚ) (converter : RateConverter ℚ)
    (constants : Constants ℚ) (s : WellState ℚ) {m : ProducerMode} (limits : m.limitedPhases ≠ [])
    (inactive : ∀ p ∈ m.limitedPhases, p ∉ t.active) :
    w.exceeds t converter constants s m = .ok false := by
  have zero : ∀ p ∈ m.limitedPhases, t.rateOrZero s.surface p = .ok 0 := fun p listed =>
    rateOrZero_of_inactive (inactive p listed) _
  have kept : ∀ limit : Limit ℚ, decide (limit.val < 0) = false := fun limit =>
    decide_eq_false limit.property
  cases m with
  | none | bhp | resv | thp | grup => exact absurd rfl limits
  | orat | wrat | grat =>
    simp only [exceeds, zero _ List.mem_cons_self, Outcome.ok_bind, neg_zero, kept,
      Outcome.pure_eq_ok]
  | lrat =>
    have oil := zero .oil List.mem_cons_self
    have water := zero .water (List.mem_cons_of_mem _ List.mem_cons_self)
    simp only [exceeds, oil, water, Outcome.ok_bind, neg_zero, sub_zero, kept, Outcome.pure_eq_ok]

/-- An injector whose rate is above its limit injects an active phase. -/
theorem Injector.exists_active_of_exceeds {w : Injector ℚ} {s : WellState ℚ}
    (exceeded : w.exceeds t s .rate = .ok true) :
    ∃ p, w.controls.fluid.phase? = some p ∧ p ∈ t.active := by
  obtain ⟨p, phase, compared⟩ := Outcome.bind_eq_ok.1 exceeded
  refine ⟨p, phase_eq_ok.1 phase, ?_⟩
  by_contra inactive
  rw [rateOrZero_of_inactive inactive] at compared
  exact w.controls.surfaceRate.property (of_decide_eq_true (Except.ok.inj compared))

namespace Evaluator
variable {e : Evaluator ℚ} {setting : Setting ℚ} {constants : Constants ℚ}
  {states : WellStates ℚ} {s after : WellState ℚ}

theorem not_onInactive_of_individualSwitch
    (switched : e.individualSwitch constants s = .ok (some after)) :
    ¬ e.well.OnInactive e.table after := by
  rintro ⟨limits, inactive⟩
  obtain ⟨w, m, well, rfl, _, _, _, exceeded⟩ | ⟨w, m, well, rfl, _, _, _, exceeded⟩ :=
    individualSwitch_eq_some switched
  · rw [well] at limits inactive
    by_cases rate : m = .rate
    · subst rate
      obtain ⟨p, phase, active⟩ := Injector.exists_active_of_exceeds exceeded
      refine inactive p ?_ active
      simp [Well.limitedPhases, phase]
    · exact limits (if_neg rate)
  · rw [well] at limits inactive
    rw [w.exceeds_of_inactive _ _ _ limits inactive] at exceeded
    cases exceeded

theorem not_onInactive_of_controlSwitch
    (switched : e.controlSwitch setting constants states s = .ok (some after)) :
    ¬ e.well.OnInactive e.table after := by
  obtain ⟨individual, checked, switched⟩ := Outcome.bind_eq_ok.1 switched
  cases individual with
  | some next =>
    cases switched
    exact not_onInactive_of_individualSwitch checked
  | none =>
    -- Under group control a well is on no limit of its own.
    rintro ⟨limits, -⟩
    obtain ⟨_, _, share, _, _, _, rfl⟩ := groupSwitch_eq_some switched
    cases well : e.well <;>
      simp [well, Well.limitedPhases, Well.underGroup, ProducerMode.limitedPhases] at limits

/-- In both models a well has the same counterpart. -/
theorem corresponds_over {c c' : FormationVolume ℚ} (sub : c.table.active ⊆ c'.table.active)
    (regions : c.SameRegions c') (apart : c.NoExchange)
    (observed : ∀ w, e.well = .producer w → w.controls.prediction = false →
      ∀ p, p ∉ c.table.active → w.observed p = 0) :
    (e.over c).Corresponds c.table c'.table (e.over c') where
  well := rfl
  table := rfl
  table' := rfl
  converter :=
    ⟨c, c', rfl, rfl, regions, FormationVolume.sameExchange_of_noExchange apart, rfl, rfl⟩
  helper := rfl
  helper' := rfl
  step := rfl
  guideRates := rfl
  observed w well historic p some := by
    have active := not_imp_comm.1 (observed w well historic p) some
    exact iff_of_true active (sub active)

/-- Let a model carry the phases of another one and more, with the same properties of regions, where
nothing goes over between oil and gas.  Let nothing flow of the further phases, and nothing of them
have been observed of a producer that follows its history.  Then a check of the own limits of a well
answers the same in both models and leaves states that hold the same rates and control modes.  So
does a check of all controls, but of an injector whose phase was left out.  No well is put on a
limit of the rates of phases that its model leaves out. -/
theorem answers_extended {c c' : FormationVolume ℚ} (sub : c.table.active ⊆ c'.table.active)
    (regions : c.SameRegions c') (apart : c.NoExchange) (e : Evaluator ℚ)
    (observed : ∀ w, e.well = .producer w → w.controls.prediction = false →
      ∀ p, p ∉ c.table.active → w.observed p = 0)
    {setting setting' : Setting ℚ} (settings : setting.Reordered c.table c'.table setting')
    (constants : Constants ℚ) {states states' : WellStates ℚ}
    (listed : states.Related (WellState.SameReadings c.table c'.table) states')
    {s s' : WellState ℚ} (related : s.SameReadings c.table c'.table s') :
    Outcome.Alike (Option.Rel (WellState.SameReadings c.table c'.table))
      ((e.over c).individualSwitch constants s) ((e.over c').individualSwitch constants s') ∧
    ((∀ w p, e.well = .injector w → w.phase = .ok p → p ∈ c.table.active) →
      let left := (⟨e.over c, setting, constants⟩ : ControlCheck ℚ).run states
      let left' := (⟨e.over c', setting', constants⟩ : ControlCheck ℚ).run states'
      left'.1 = left.1 ∧ left.2.Related (WellState.SameReadings c.table c'.table) left'.2) ∧
    ∀ after, (e.over c).individualSwitch constants s = .ok (some after) ∨
        (e.over c).controlSwitch setting constants states s = .ok (some after) →
      ¬ e.well.OnInactive c.table after := by
  have same := e.corresponds_over sub regions apart observed
  have kept := keptByChecks_sameReadings c.table c'.table
  refine ⟨same.individualSwitch_alike kept constants related, fun carried => ?_, ?_⟩
  · refine ControlCheck.run_alike same kept (fun w p well phase => ?_) settings rfl listed
    have active := carried w p well phase
    exact iff_of_true active (sub active)
  · rintro after (switched | switched)
    · exact not_onInactive_of_individualSwitch switched
    · exact not_onInactive_of_controlSwitch switched

end Evaluator

section Example

def PhaseTable.oilWater : PhaseTable := ⟨[.oil, .water], by decide, by decide⟩

def FormationVolume.deadOil (t : PhaseTable) : FormationVolume ℚ := { doubled with table := t }

theorem FormationVolume.deadOil_noExchange (t : PhaseTable) : (deadOil t).NoExchange := by
  intro fip pvt r found
  cases found
  exact ⟨rfl, rfl⟩

def Producer.historic : Producer ℚ :=
  { Producer.plain "P" "G" with
    controls := { ProductionControls.free with
      modes := [.grat, .lrat, .resv]
      oilRate := ⟨4, by decide⟩, waterRate := ⟨9, by decide⟩, liquidRate := ⟨20, by decide⟩
      prediction := false } }

def Phase.gasless (oil water : ℚ) : Phase → ℚ
  | .water => water
  | .oil => oil
  | .gas => 0

theorem PhaseTable.sameRates_gasless (oil water : ℚ) :
    SameRates oilWater blackOil (oilWater.active.map (Phase.gasless oil water))
      (blackOil.active.map (Phase.gasless oil water)) := by
  have sub : oilWater.active ⊆ blackOil.active := by decide
  exact (sameRates_iff_of_subset sub).2 ⟨rfl, rfl⟩

def WellState.gasless (t : PhaseTable) (name : String) (oil water : ℚ) : WellState ℚ :=
  { WellState.flowing name (0, 0, 0) [] with
    surfaceRates := .ofList (t.active.map (Phase.gasless oil water))
    reservoirRates := .ofList (t.active.map (Phase.gasless oil water)) }

theorem WellState.sameReadings_gasless (name : String) (oil water : ℚ) :
    (gasless .oilWater name oil water).SameReadings .oilWater .blackOil
      (gasless .blackOil name oil water) :=
  have rates := Grid.SameRates.ofList (sameRates_gasless oil water)
  ⟨rates, rates, rfl, rfl, rfl, rfl⟩

/-- The two producers of a group may together leave a reservoir volume of 12, less an oil rate. -/
def Setting.gasless (t : PhaseTable) : Setting ℚ :=
  { Setting.ofGroup ⟨"G", none, some ⟨.resv, none, none, none, none, some ⟨12, by decide⟩⟩, .empty⟩
      [.historic, .plain "Q" "G"] with
    reductions := ⟨Catalog.empty.put "G" (t.active.map (Phase.gasless 1 0)), .empty⟩ }

theorem Setting.gasless_reordered :
    (Setting.gasless .oilWater).Reordered .oilWater .blackOil (Setting.gasless .blackOil) := by
  refine ⟨rfl, fun group => ?_, fun group => .none⟩
  simp only [gasless, Catalog.get?_put]
  split
  · exact .some (sameRates_gasless 1 0)
  · exact .none

def WellStates.gasless (t : PhaseTable) : WellStates ℚ :=
  (Catalog.empty.put "P" (.gasless t "P" (-2) (-8))).put "Q" (.gasless t "Q" (-4) (-1))

/-- The producer is cut to its share of the group, whether the model carries gas or not. -/
theorem Evaluator.historic_extended :
    let e : Evaluator ℚ := .plain (.producer .historic)
    let c := FormationVolume.deadOil .oilWater
    let c' := FormationVolume.deadOil .blackOil
    let s := WellState.gasless .oilWater "P" (-2) (-8)
    let s' := WellState.gasless .blackOil "P" (-2) (-8)
    let left := (⟨e.over c, .gasless .oilWater, .standard⟩ : ControlCheck ℚ).run
      (.gasless .oilWater)
    let left' := (⟨e.over c', .gasless .blackOil, .standard⟩ : ControlCheck ℚ).run
      (.gasless .blackOil)
    (left.2.get? "P").map (fun s => (s.surface, s.productionControl)) =
      some ([-2 / 3, -8 / 3], .grup) ∧
    (left'.2.get? "P").map (fun s => (s.surface, s.productionControl)) =
      some ([-8 / 3, -2 / 3, 0], .grup) ∧
    Outcome.Alike (Option.Rel (WellState.SameReadings .oilWater .blackOil))
      ((e.over c).individualSwitch .standard s) ((e.over c').individualSwitch .standard s') ∧
    ((∀ w p, e.well = .injector w → w.phase = .ok p → p ∈ c.table.active) →
      left'.1 = left.1 ∧ left.2.Related (WellState.SameReadings .oilWater .blackOil) left'.2) ∧
    ∀ after, (e.over c).individualSwitch .standard s = .ok (some after) ∨
        (e.over c).controlSwitch (.gasless .oilWater) .standard (.gasless .oilWater) s =
          .ok (some after) →
      ¬ e.well.OnInactive c.table after := by
  intro e c c' s s' left left'
  have observed : ∀ w, e.well = .producer w → w.controls.prediction = false →
      ∀ p, p ∉ c.table.active → w.observed p = 0 := by
    rintro w ⟨⟩ _ p missing
    cases p with
    | gas => rfl
    | water | oil => exact absurd (by decide) missing
  have listed : (WellStates.gasless .oilWater).Related
      (WellState.SameReadings .oilWater .blackOil) (.gasless .blackOil) := by
    intro name
    simp only [WellStates.gasless, Catalog.get?_put]
    split
    · exact .some (WellState.sameReadings_gasless _ _ _)
    · split
      · exact .some (WellState.sameReadings_gasless _ _ _)
      · exact .none
  have sub : c.table.active ⊆ c'.table.active := by decide
  have regions : c.SameRegions c' := ⟨rfl, rfl⟩
  refine ⟨by decide +kernel, by decide +kernel, ?_⟩
  exact answers_extended sub regions (FormationVolume.deadOil_noExchange .oilWater) e observed
    Setting.gasless_reordered .standard listed (WellState.sameReadings_gasless "P" (-2) (-8))

end Example
end WellControl
