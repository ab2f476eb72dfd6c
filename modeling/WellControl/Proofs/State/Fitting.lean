import WellControl.Proofs.Control.Frame
import WellControl.Proofs.Phase.Entries

/-! # States that fit a phase table

A state fits a phase table if its arrays have one entry for each active phase.  The states that are
built for a table do, and a check of the controls keeps it so. -/
set_option autoImplicit false

namespace WellControl

/-- The arrays of a state have one entry for each active phase. -/
structure WellState.Fits {α : Type} (t : PhaseTable) (s : WellState α) : Prop where
  surface : s.surfaceRates.shape = [t.size]
  reservoir : s.reservoirRates.shape = [t.size]
  potentials : ∃ g, s.potentials = some g ∧ g.shape = [t.size]
  perforations : ∃ rows, s.perforationRates.shape = [rows, t.size]

def WellStates.Fit {α : Type} (t : PhaseTable) (states : WellStates α) : Prop :=
  ∀ name s, states.get? name = some s → s.Fits t

namespace WellState.Fits
variable {α : Type} {t : PhaseTable} {s s' : WellState α}

theorem length_surface (fits : s.Fits t) : s.surface.length = t.size :=
  Grid.length_line fits.surface

theorem length_reservoir (fits : s.Fits t) : s.reservoir.length = t.size :=
  Grid.length_line fits.reservoir

theorem length_potential (fits : s.Fits t) : s.potential.length = t.size := by
  obtain ⟨g, given, shape⟩ := fits.potentials
  rw [potential, given]
  exact Grid.length_line shape

/-- A state that has passed its check fits every table with as many phases as it has rates. -/
theorem of_fit [Scalar α] {written : WellState α} (built : written.fit = .ok s)
    (phases : s.surfaceRates.extent = t.size) : s.Fits t := by
  unfold fit at built
  simp only [bind, Except.bind, pure, Except.pure, throw, throwThe, MonadExceptOf.throw] at built
  obtain ⟨single, built⟩ := Outcome.ite_error_eq_ok.1 built
  obtain ⟨reservoir, built⟩ := Outcome.ite_error_eq_ok.1 built
  obtain ⟨potentials, built⟩ := Outcome.ite_error_eq_ok.1 built
  obtain ⟨perforations, built⟩ := Outcome.ite_error_eq_ok.1 built
  cases built
  change written.surfaceRates.extent = t.size at phases
  obtain ⟨n, shape⟩ := List.length_eq_one_iff.1 (Decidable.not_not.1 single)
  have extent : n = t.size := by
    rw [← phases, Grid.extent, shape]
    rfl
  subst extent
  rw [phases]
  refine ⟨shape, (Decidable.not_not.1 reservoir).trans shape,
    ⟨_, rfl, (Decidable.not_not.1 potentials).trans shape⟩, ?_⟩
  simp only [Bool.or_eq_true, decide_eq_true_eq, not_or, ne_eq, Decidable.not_not,
    phases] at perforations
  obtain ⟨two, rest⟩ := perforations
  obtain ⟨rows, columns, pair⟩ := List.length_eq_two.1 two
  rw [pair] at rest
  exact ⟨rows, pair.trans (congrArg (rows :: ·) rest)⟩

/-- So does a state that is built from what is written. -/
theorem of_ofDraft [Scalar α] {written : Draft α} (built : ofDraft written = .ok s)
    (phases : s.surfaceRates.extent = t.size) : s.Fits t := by
  unfold ofDraft at built
  obtain ⟨surfaceRates, -, built⟩ := Outcome.bind_eq_ok.1 built
  obtain ⟨reservoirRates, -, built⟩ := Outcome.bind_eq_ok.1 built
  obtain ⟨potentials, -, built⟩ := Outcome.bind_eq_ok.1 built
  obtain ⟨perforationRates, -, built⟩ := Outcome.bind_eq_ok.1 built
  obtain ⟨injectionControl, -, built⟩ := Outcome.bind_eq_ok.1 built
  obtain ⟨productionControl, -, built⟩ := Outcome.bind_eq_ok.1 built
  obtain ⟨status, -, built⟩ := Outcome.bind_eq_ok.1 built
  exact of_fit built phases

theorem of_kept (fits : s.Fits t) (kept : s.Kept s')
    (surface : s'.surfaceRates.shape = s.surfaceRates.shape) : s'.Fits t where
  surface := surface.trans fits.surface
  reservoir := by
    rw [kept.reservoirRates]
    exact fits.reservoir
  potentials := by
    rw [kept.potentials]
    exact fits.potentials
  perforations := by
    rw [kept.perforationRates]
    exact fits.perforations

end WellState.Fits

section Checks
variable {α : Type} [Scalar α]

theorem Evaluator.Transition.shape {e : Evaluator α} {setting : Setting α}
    {constants : Constants α} {states : WellStates α} {switched : Prop} {s s' : WellState α}
    (transition : e.Transition setting constants states switched s s') :
    s'.surfaceRates.shape = s.surfaceRates.shape := by
  by_cases cut : switched ∧ e.well.mode s' = e.well.groupMode
  · obtain ⟨_, _, _, _, _, rates⟩ := transition.cut cut.1 cut.2
    rw [rates, Grid.shape_map]
  · rw [transition.uncut cut]

/-- The state with which a well goes from the check of its controls into its review. -/
theorem Evaluator.kept_of_controlSwitch {e : Evaluator α} {setting : Setting α}
    {constants : Constants α} {states : WellStates α} {s : WellState α}
    {switched : Option (WellState α)}
    (checked : e.controlSwitch setting constants states s = .ok switched) :
    s.Kept (switched.getD s) ∧ (switched.getD s).surfaceRates.shape = s.surfaceRates.shape := by
  cases switched with
  | none => exact ⟨.refl s, rfl⟩
  | some s' =>
    have transition : e.Transition setting constants states True s s' :=
      .of_switch (switch_of_controlSwitch checked) trivial
    exact ⟨transition.kept, transition.shape⟩

/-- A later collection holds states of the same wells, which differ from the earlier ones at most in
control modes and in surface rates of the same number. -/
structure WellStates.Kept (before after : WellStates α) : Prop where
  missing : ∀ name, after.get? name = none → before.get? name = none
  listed : ∀ name s', after.get? name = some s' → ∃ s, before.get? name = some s ∧ s.Kept s' ∧
    s'.surfaceRates.shape = s.surfaceRates.shape

namespace WellStates.Kept
variable {first second third : WellStates α}

omit [Scalar α] in
theorem refl (states : WellStates α) : states.Kept states :=
  ⟨fun _ missing => missing, fun _ s' found => ⟨s', found, .refl s', rfl⟩⟩

omit [Scalar α] in
theorem trans (earlier : first.Kept second) (later : second.Kept third) : first.Kept third := by
  constructor
  · intro name missing
    exact earlier.missing name (later.missing name missing)
  · intro name s'' found
    obtain ⟨s', found', kept', shape'⟩ := later.listed name s'' found
    obtain ⟨s, found, kept, shape⟩ := earlier.listed name s' found'
    exact ⟨s, found, kept.trans kept', shape'.trans shape⟩

omit [Scalar α] in
theorem fit {t : PhaseTable} (kept : first.Kept second) (fit : first.Fit t) : second.Fit t := by
  intro name s' found
  obtain ⟨s, found', kept', shape⟩ := kept.listed name s' found
  exact (fit name s found').of_kept kept' shape

theorem of_check (c : ControlCheck α) (states : WellStates α) : states.Kept (c.run states).2 := by
  have accounted := c.accounted states
  have missing : ∀ name, (c.run states).2.get? name = none → states.get? name = none := by
    intro name missing
    rw [Catalog.get?_eq_none_iff] at missing ⊢
    rwa [accounted.keys] at missing
  refine ⟨missing, fun name s' found => ?_⟩
  by_cases own : name = c.evaluator.name
  · subst own
    cases listed : states.get? c.evaluator.name with
    | none =>
      have absent := Catalog.get?_eq_none_iff.1 listed
      rw [← accounted.keys, ← Catalog.get?_eq_none_iff, found] at absent
      cases absent
    | some s =>
      obtain ⟨left, found', transition⟩ := accounted.own s listed
      cases Option.some.inj (found.symm.trans found')
      exact ⟨s, rfl, transition.kept, transition.shape⟩
  · rw [accounted.others name own] at found
    exact ⟨s', found, .refl s', rfl⟩

end WellStates.Kept

theorem kept_visitAll (setting : Setting α) (time : α) (es : List (Evaluator α)) (w : World α) :
    w.states.Kept (visitAll setting time es w).2.states := by
  induction es generalizing w with
  | nil => exact .refl _
  | cons e rest ih =>
    have first : w.states.Kept (e.visit setting time w).2.states := by
      rw [e.states_visit]
      exact .of_check _ w.states
    rcases visitAll_cons_world setting time e rest w with after | after
    · rw [after]
      exact first
    · rw [after]
      exact first.trans (ih _)

end Checks
end WellControl
