import WellControl.Control.Switching
import WellControl.Proofs.Outcome

/-! # What a check of the controls makes of a state

`Evaluator.Switch` lists the states that a check may put in the place of a well's state: the same
state under another of the well's own limits, or the state under group control, with its surface
rates cut by the factor that the group helper gave when it was asked about the well
(`Evaluator.groupQuestion`).  Either way the mode of the well's own kind is another one than before
(`Evaluator.Switch.mode_ne`). -/
set_option autoImplicit false

namespace WellControl

/-- The first mode found is one that was visited, is enabled and exceeded, and is not current. -/
theorem firstExceeded_eq_some {μ φ : Type} [DecidableEq μ] {enabled : μ → Bool} {current : μ}
    {exceeded : μ → Except φ Bool} {order : List μ} {m : μ}
    (found : firstExceeded enabled current exceeded order = .ok (some m)) :
    m ∈ order ∧ enabled m = true ∧ m ≠ current ∧ exceeded m = .ok true := by
  induction order with
  | nil => simp [firstExceeded] at found
  | cons head rest ih =>
    rw [firstExceeded] at found
    split at found
    · rename_i candidate
      rw [Bool.and_eq_true, decide_eq_true_eq] at candidate
      cases answer : exceeded head with
      | error fault => simp [answer] at found
      | ok above =>
        cases above with
        | true =>
          simp only [answer, Except.ok.injEq, Option.some.injEq] at found
          subst found
          exact ⟨List.mem_cons_self, candidate.1, candidate.2, answer⟩
        | false =>
          simp only [answer] at found
          obtain ⟨member, rest⟩ := ih found
          exact ⟨List.mem_cons_of_mem _ member, rest⟩
    · obtain ⟨member, rest⟩ := ih found
      exact ⟨List.mem_cons_of_mem _ member, rest⟩

/-- Nothing is found among modes that are not enabled. -/
theorem firstExceeded_of_none_enabled {μ φ : Type} [DecidableEq μ] {enabled : μ → Bool}
    {exceeded : μ → Except φ Bool} {order : List μ} (current : μ)
    (off : ∀ m ∈ order, enabled m = false) :
    firstExceeded enabled current exceeded order = .ok none := by
  induction order with
  | nil => rfl
  | cons head rest ih =>
    simp only [firstExceeded, off head List.mem_cons_self, Bool.false_and, Bool.false_eq_true,
      if_false]
    exact ih fun m member => off m (List.mem_cons_of_mem _ member)

variable {α : Type} [Scalar α]

namespace Well

/-- The control mode of the well's own kind. -/
def mode (w : Well α) (s : WellState α) : InjectorMode ⊕ ProducerMode :=
  match w with
  | .injector _ => .inl s.injectionControl
  | .producer _ => .inr s.productionControl

def groupMode : Well α → InjectorMode ⊕ ProducerMode
  | .injector _ => .inl .grup
  | .producer _ => .inr .grup

def underGroup (w : Well α) (s : WellState α) : WellState α :=
  match w with
  | .injector _ => { s with injectionControl := .grup }
  | .producer _ => { s with productionControl := .grup }

/-- What a well does for its group's targets. -/
def demand (w : Well α) : Outcome α Demand :=
  match w with
  | .injector w => do return .injection (← w.phase)
  | .producer _ => .ok .production

@[simp] theorem mode_underGroup (w : Well α) (s : WellState α) :
    w.mode (w.underGroup s) = w.groupMode := by
  cases w <;> rfl

theorem surfaceRates_underGroup (w : Well α) (s : WellState α) :
    (w.underGroup s).surfaceRates = s.surfaceRates := by
  cases w <;> rfl

end Well

namespace Evaluator

def groupQuestion (e : Evaluator α) (setting : Setting α) (constants : Constants α)
    (states : WellStates α) (s : WellState α) : Outcome α (ShareQuery α) := do
  let demand ← e.well.demand
  let (group, coefficients) ← e.groupAndCoefficients setting constants
  return e.shareQuery setting constants states s.surfaceRates group demand coefficients

inductive Switch (e : Evaluator α) (setting : Setting α) (constants : Constants α)
    (states : WellStates α) (s : WellState α) : WellState α → Prop
  /-- An injector goes over to another of its own limits. -/
  | injectorLimit {w : Injector α} {m : InjectorMode} (well : e.well = .injector w)
      (visited : m ∈ InjectorMode.visitingOrder) (enabled : w.controls.has m = true)
      (other : m ≠ s.injectionControl) :
      Switch e setting constants states s { s with injectionControl := m }
  /-- A producer goes over to another of its own limits. -/
  | producerLimit {w : Producer α} {m : ProducerMode} (well : e.well = .producer w)
      (visited : m ∈ ProducerMode.visitingOrder) (enabled : w.controls.has m = true)
      (other : m ≠ s.productionControl) :
      Switch e setting constants states s { s with productionControl := m }
  /-- A well is cut to its share and put under group control. -/
  | share {q : ShareQuery α} {share : Share α} (free : e.well.mode s ≠ e.well.groupMode)
      (asked : e.groupQuestion setting constants states s = .ok q)
      (answer : e.helper q = .ok share) (exceeded : share.exceeded = true) :
      Switch e setting constants states s (e.well.underGroup (s.scale share.factor))

variable {e : Evaluator α} {setting : Setting α} {constants : Constants α}
  {states : WellStates α} {s s' : WellState α}

/-- A switch always leaves the well in another mode. -/
theorem Switch.mode_ne (switch : e.Switch setting constants states s s') :
    e.well.mode s' ≠ e.well.mode s := by
  cases switch with
  | injectorLimit well _ _ other => simpa [Well.mode, well] using other
  | producerLimit well _ _ other => simpa [Well.mode, well] using other
  | share free _ _ _ =>
    rw [Well.mode_underGroup]
    exact free.symm

theorem rescale_eq_ok {factor : α} (scaled : s.rescale factor = .ok s') : s' = s.scale factor := by
  unfold WellState.rescale at scaled
  split at scaled
  · cases scaled
  · exact (Except.ok.inj scaled).symm

/-- All that a check of a well's own limits may do to its state. -/
theorem individualSwitch_eq_some (switched : e.individualSwitch constants s = .ok (some s')) :
    (∃ w m, e.well = .injector w ∧ s' = { s with injectionControl := m } ∧
      m ∈ InjectorMode.visitingOrder ∧ w.controls.has m = true ∧ m ≠ s.injectionControl ∧
      w.exceeds e.table s m = .ok true) ∨
    ∃ w m, e.well = .producer w ∧ s' = { s with productionControl := m } ∧
      m ∈ ProducerMode.visitingOrder ∧ w.controls.has m = true ∧ m ≠ s.productionControl ∧
      w.exceeds e.table e.converter constants s m = .ok true := by
  unfold individualSwitch at switched
  split at switched
  · rename_i w well
    obtain ⟨mode, found, result⟩ := Outcome.bind_eq_ok.1 switched
    obtain ⟨m, rfl, rfl⟩ := Option.map_eq_some_iff.1 (Except.ok.inj result)
    exact .inl ⟨w, m, well, rfl, firstExceeded_eq_some found⟩
  · rename_i w well
    obtain ⟨mode, found, result⟩ := Outcome.bind_eq_ok.1 switched
    obtain ⟨m, rfl, rfl⟩ := Option.map_eq_some_iff.1 (Except.ok.inj result)
    exact .inr ⟨w, m, well, rfl, firstExceeded_eq_some found⟩

theorem switch_of_individualSwitch
    (switched : e.individualSwitch constants s = .ok (some s')) :
    e.Switch setting constants states s s' := by
  obtain ⟨w, m, well, rfl, visited, enabled, other, _⟩ |
    ⟨w, m, well, rfl, visited, enabled, other, _⟩ := individualSwitch_eq_some switched
  · exact .injectorLimit well visited enabled other
  · exact .producerLimit well visited enabled other

/-- A check against a group puts one question to the helper, unless the well is under group control
already. -/
theorem groupSwitch_eq (e : Evaluator α) (setting : Setting α) (constants : Constants α)
    (states : WellStates α) (s : WellState α) :
    e.groupSwitch setting constants states s =
      if e.well.mode s = e.well.groupMode then .ok none
      else do
        let q ← e.groupQuestion setting constants states s
        let share ← e.helper q
        if share.exceeded then return some (e.well.underGroup (← s.rescale share.factor))
        else return none := by
  cases well : e.well with
  | injector w =>
    by_cases under : s.injectionControl = .grup
    · have grouped : (Well.injector w).mode s = (Well.injector w).groupMode :=
        congrArg Sum.inl under
      rw [if_pos grouped]
      simp only [groupSwitch, well, under, if_true]
    · have free : (Well.injector w).mode s ≠ (Well.injector w).groupMode := fun same =>
        under (Sum.inl.inj same)
      rw [if_neg free]
      simp only [groupSwitch, well, under, if_false, groupQuestion, Well.demand, bind_assoc,
        pure_bind, Well.underGroup]
  | producer w =>
    by_cases under : s.productionControl = .grup
    · have grouped : (Well.producer w).mode s = (Well.producer w).groupMode :=
        congrArg Sum.inr under
      rw [if_pos grouped]
      simp only [groupSwitch, well, under, if_true]
    · have free : (Well.producer w).mode s ≠ (Well.producer w).groupMode := fun same =>
        under (Sum.inr.inj same)
      rw [if_neg free]
      simp only [groupSwitch, well, under, if_false, groupQuestion, Well.demand, bind_assoc,
        pure_bind, Outcome.ok_bind, Well.underGroup]

theorem groupQuestion_eq_ok {q : ShareQuery α} :
    e.groupQuestion setting constants states s = .ok q ↔
      ∃ d group coefficients, e.well.demand = .ok d ∧
        e.groupAndCoefficients setting constants = .ok (group, coefficients) ∧
        q = e.shareQuery setting constants states s.surfaceRates group d coefficients := by
  constructor
  · intro asked
    obtain ⟨d, demanded, asked⟩ := Outcome.bind_eq_ok.1 asked
    obtain ⟨⟨group, coefficients⟩, found, result⟩ := Outcome.bind_eq_ok.1 asked
    exact ⟨d, group, coefficients, demanded, found, (Except.ok.inj result).symm⟩
  · rintro ⟨d, group, coefficients, demanded, found, rfl⟩
    rw [groupQuestion, demanded, Outcome.ok_bind, found]
    rfl

theorem groupSwitch_eq_ok {result : Option (WellState α)}
    (checked : e.groupSwitch setting constants states s = .ok result) :
    (e.well.mode s = e.well.groupMode ∧ result = none) ∨
      (e.well.mode s ≠ e.well.groupMode ∧
        ∃ q share, e.groupQuestion setting constants states s = .ok q ∧ e.helper q = .ok share ∧
          result = if share.exceeded then some (e.well.underGroup (s.scale share.factor))
            else none) := by
  rw [groupSwitch_eq] at checked
  by_cases under : e.well.mode s = e.well.groupMode
  · rw [if_pos under] at checked
    exact .inl ⟨under, (Except.ok.inj checked).symm⟩
  · rw [if_neg under] at checked
    obtain ⟨q, asked, checked⟩ := Outcome.bind_eq_ok.1 checked
    obtain ⟨share, answer, checked⟩ := Outcome.bind_eq_ok.1 checked
    refine .inr ⟨under, q, share, asked, answer, ?_⟩
    split at checked
    · rename_i exceeded
      obtain ⟨scaled, rescaled, placed⟩ := Outcome.bind_eq_ok.1 checked
      rw [if_pos exceeded, ← rescale_eq_ok rescaled]
      exact (Except.ok.inj placed).symm
    · rename_i kept
      rw [if_neg kept]
      exact (Except.ok.inj checked).symm

theorem groupSwitch_eq_some
    (switched : e.groupSwitch setting constants states s = .ok (some s')) :
    e.well.mode s ≠ e.well.groupMode ∧
      ∃ q share, e.groupQuestion setting constants states s = .ok q ∧ e.helper q = .ok share ∧
        share.exceeded = true ∧ s' = e.well.underGroup (s.scale share.factor) := by
  obtain ⟨_, impossible⟩ | ⟨free, q, share, asked, answer, result⟩ := groupSwitch_eq_ok switched
  · cases impossible
  · split at result
    · rename_i exceeded
      exact ⟨free, q, share, asked, answer, exceeded, Option.some.inj result⟩
    · cases result

theorem switch_of_groupSwitch
    (switched : e.groupSwitch setting constants states s = .ok (some s')) :
    e.Switch setting constants states s s' := by
  obtain ⟨free, q, share, asked, answer, exceeded, rfl⟩ := groupSwitch_eq_some switched
  exact .share free asked answer exceeded

theorem switch_of_controlSwitch
    (switched : e.controlSwitch setting constants states s = .ok (some s')) :
    e.Switch setting constants states s s' := by
  obtain ⟨individual, checked, switched⟩ := Outcome.bind_eq_ok.1 switched
  cases individual with
  | some next =>
    cases switched
    exact switch_of_individualSwitch checked
  | none => exact switch_of_groupSwitch switched

end Evaluator
end WellControl
