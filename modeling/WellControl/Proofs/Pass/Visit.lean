import Mathlib.Data.List.Forall2
import WellControl.Pass.Basic
import WellControl.Proofs.Closure.Additions
import WellControl.Proofs.Control.Switching

/-! # Visits and the wells they leave alone

A visit without a physical check reads and writes the state and the closures of one well.  Two
worlds agree on a well when they hold the same state and the same closures of it
(`World.AgreeOn`); a visit agrees on every other well, and a pass on every well that it does not
visit, whether or not it ends with a fault. -/
set_option autoImplicit false

namespace WellControl
variable {α : Type} [Scalar α]

namespace World

/-- Two worlds hold the same state and the same closures of a well. -/
structure AgreeOn (name : String) (before after : World α) : Prop where
  state : after.states.get? name = before.states.get? name
  wells : ∀ reason,
    after.closures.hasWell name (some reason) = before.closures.hasWell name (some reason)
  completions :
    after.closures.closedCompletions name = before.closures.closedCompletions name

theorem AgreeOn.refl (name : String) (w : World α) : AgreeOn name w w :=
  ⟨rfl, fun _ => rfl, rfl⟩

theorem AgreeOn.trans {name : String} {before middle after : World α}
    (first : AgreeOn name before middle) (second : AgreeOn name middle after) :
    AgreeOn name before after :=
  ⟨second.state.trans first.state, fun reason => (second.wells reason).trans (first.wells reason),
    second.completions.trans first.completions⟩

theorem AgreeOn.symm {name : String} {before after : World α} (agree : AgreeOn name before after) :
    AgreeOn name after before :=
  ⟨agree.state.symm, fun reason => (agree.wells reason).symm, agree.completions.symm⟩

theorem AgreeOn.sameOf {name : String} {before after : World α}
    (agree : AgreeOn name before after) :
    ClosureRecord.SameOf name before.closures after.closures := by
  refine ⟨agree.wells, fun id => ?_⟩
  simp only [ClosureRecord.hasCompletion, Catalog.has]
  rw [decide_eq_decide, ← ClosureRecord.mem_closedCompletions, agree.completions,
    ClosureRecord.mem_closedCompletions]

@[simp] theorem constants_withState (w : World α) (name : String) (s : Option (WellState α)) :
    (w.withState name s).constants = w.constants := by cases s <;> rfl

@[simp] theorem closures_withState (w : World α) (name : String) (s : Option (WellState α)) :
    (w.withState name s).closures = w.closures := by cases s <;> rfl

@[simp] theorem books_withState (w : World α) (name : String) (s : Option (WellState α)) :
    (w.withState name s).books = w.books := by cases s <;> rfl

@[simp] theorem states_withBooks (w : World α) (label : String) (b : Books α) :
    (w.withBooks label b).states = w.states := rfl

@[simp] theorem closures_withBooks (w : World α) (label : String) (b : Books α) :
    (w.withBooks label b).closures = b.closures := rfl

@[simp] theorem constants_withBooks (w : World α) (label : String) (b : Books α) :
    (w.withBooks label b).constants = w.constants := rfl

theorem state_withState_other (w : World α) {name other : String} (different : other ≠ name)
    (s : Option (WellState α)) :
    (w.withState name s).states.get? other = w.states.get? other := by
  cases s with
  | none => rfl
  | some s => simp [withState, Catalog.adjust, Catalog.get?_mapValues, different]

theorem state_withState_self (w : World α) {name : String} {s : WellState α}
    (listed : w.states.get? name = some s) (new : Option (WellState α)) :
    (w.withState name new).states.get? name = some (new.getD s) := by
  cases new with
  | none => exact listed
  | some s' => simp [withState, Catalog.adjust, Catalog.get?_mapValues, listed]

end World

omit [Scalar α] in
theorem WellStates.state_eq_ok {states : WellStates α} {name : String} {s : WellState α} :
    states.state name = .ok s ↔ states.get? name = some s := by
  unfold WellStates.state
  split <;> simp_all

namespace Evaluator
variable {e : Evaluator α} {setting : Setting α} {time : α} {w : World α}

/-- The world after a visit: untouched when the state is missing or the controls cannot be
checked, else with the state that the controls leave and the books that the update leaves. -/
theorem visit_world (e : Evaluator α) (setting : Setting α) (time : α) (w : World α) :
    (e.visit setting time w).2 = w ∨
      ∃ s switched, w.states.get? e.name = some s ∧
        e.controlSwitch setting w.constants w.states s = .ok switched ∧
        (e.visit setting time w).2 = (w.withState e.name switched).withBooks e.label
          (e.updateBooks w.constants (switched.getD s) time w.books).2 := by
  unfold visit
  cases found : w.states.state e.name with
  | error fault => exact .inl rfl
  | ok s =>
    cases checked : e.controlSwitch setting w.constants w.states s with
    | error fault => exact .inl (by simp only [checked])
    | ok switched =>
      refine .inr ⟨s, switched, WellStates.state_eq_ok.1 found, checked, ?_⟩
      simp only [checked, World.constants_withState, World.books_withState]
      rcases e.updateBooks w.constants (switched.getD s) time w.books with ⟨_ | _, b⟩ <;> rfl

/-- A visit that ends without a fault: what it read, what it left and what it reports. -/
theorem visit_ok {report : StepReport} {after : World α}
    (visited : e.visit setting time w = (.ok report, after)) :
    ∃ s switched b, w.states.get? e.name = some s ∧
      e.controlSwitch setting w.constants w.states s = .ok switched ∧
      e.updateBooks w.constants (switched.getD s) time w.books = (.ok (), b) ∧
      report = .ofVisit e.name switched.isSome w.closures b.closures ∧
      after = (w.withState e.name switched).withBooks e.label b := by
  unfold visit at visited
  cases found : w.states.state e.name with
  | error fault => simp [found] at visited
  | ok s =>
    simp only [found] at visited
    cases checked : e.controlSwitch setting w.constants w.states s with
    | error fault => simp [checked] at visited
    | ok switched =>
      simp only [checked, World.constants_withState, World.books_withState,
        World.closures_withState] at visited
      rcases updated : e.updateBooks w.constants (switched.getD s) time w.books with ⟨_ | _, b⟩
      · simp [updated] at visited
      · simp only [updated, Prod.mk.injEq, Except.ok.injEq] at visited
        exact ⟨s, switched, b, WellStates.state_eq_ok.1 found, checked, updated,
          visited.1.symm, visited.2.symm⟩

theorem visit_eq {s : WellState α} {switched : Option (WellState α)} {b : Books α}
    (found : w.states.get? e.name = some s)
    (checked : e.controlSwitch setting w.constants w.states s = .ok switched)
    (updated : e.updateBooks w.constants (switched.getD s) time w.books = (.ok (), b)) :
    e.visit setting time w =
      (.ok (.ofVisit e.name switched.isSome w.closures b.closures),
        (w.withState e.name switched).withBooks e.label b) := by
  simp only [visit, WellStates.state_eq_ok.2 found, checked, World.constants_withState,
    World.books_withState, World.closures_withState, updated]

@[simp] theorem constants_visit (e : Evaluator α) (setting : Setting α) (time : α) (w : World α) :
    (e.visit setting time w).2.constants = w.constants := by
  rcases e.visit_world setting time w with same | ⟨_, _, _, _, after⟩
  · rw [same]
  · rw [after]
    simp

theorem constants_of_visit {outcome : Outcome α StepReport} {after : World α}
    (visited : e.visit setting time w = (outcome, after)) : after.constants = w.constants := by
  have kept := e.constants_visit setting time w
  rwa [visited] at kept

theorem growth_visit (noHook : e.physical = none) (setting : Setting α) (time : α)
    (w : World α) :
    w.closures.Growth e.name time (e.visit setting time w).2.closures := by
  rcases e.visit_world setting time w with same | ⟨s, switched, _, _, after⟩
  · rw [same]
    exact .refl _ _ _
  · rw [after]
    exact growth_updateBooks noHook w.constants (switched.getD s) time w.books

theorem state_visit_other (e : Evaluator α) (setting : Setting α) (time : α) (w : World α)
    {other : String} (different : other ≠ e.name) :
    (e.visit setting time w).2.states.get? other = w.states.get? other := by
  rcases e.visit_world setting time w with same | ⟨s, switched, _, _, after⟩
  · rw [same]
  · rw [after]
    exact w.state_withState_other different switched

theorem agreeOn_visit (noHook : e.physical = none) (setting : Setting α) (time : α)
    (w : World α) {other : String} (different : other ≠ e.name) :
    World.AgreeOn other w (e.visit setting time w).2 := by
  have growth := growth_visit noHook setting time w
  exact ⟨e.state_visit_other setting time w different, growth.hasWell_other different,
    growth.closedCompletions_other different⟩

theorem agreeOn_of_visit (noHook : e.physical = none) {outcome : Outcome α StepReport}
    {after : World α} (visited : e.visit setting time w = (outcome, after)) {other : String}
    (different : other ≠ e.name) : World.AgreeOn other w after := by
  have agree := agreeOn_visit noHook setting time w different
  rwa [visited] at agree

end Evaluator

section Run

theorem visitAll_cons_ok {setting : Setting α} {time : α} {e : Evaluator α}
    {rest : List (Evaluator α)} {w after : World α} {report : StepReport}
    (passed : visitAll setting time (e :: rest) w = (.ok report, after)) :
    ∃ first middle more, e.visit setting time w = (.ok first, middle) ∧
      visitAll setting time rest middle = (.ok more, after) ∧ report = first.append more := by
  simp only [visitAll] at passed
  rcases visited : e.visit setting time w with ⟨_ | first, middle⟩
  · simp [visited] at passed
  · simp only [visited] at passed
    rcases later : visitAll setting time rest middle with ⟨_ | more, last⟩
    · simp [later] at passed
    · simp only [later, Prod.mk.injEq, Except.ok.injEq] at passed
      exact ⟨first, middle, more, rfl, by rw [later, passed.2], passed.1.symm⟩

/-- The world after a pass over a nonempty list is the one after its first visit, or the one after
the rest of the pass from there. -/
theorem visitAll_cons_world (setting : Setting α) (time : α) (e : Evaluator α)
    (rest : List (Evaluator α)) (w : World α) :
    (visitAll setting time (e :: rest) w).2 = (e.visit setting time w).2 ∨
      (visitAll setting time (e :: rest) w).2 =
        (visitAll setting time rest (e.visit setting time w).2).2 := by
  simp only [visitAll]
  rcases e.visit setting time w with ⟨_ | first, middle⟩
  · exact .inl rfl
  · refine .inr ?_
    dsimp only
    rcases visitAll setting time rest middle with ⟨_ | more, last⟩ <;> rfl

/-- Two passes in step: where each visit has the same outcome as its counterpart and keeps worlds
related, so do the passes. -/
theorem visitAll_alike {R : World α → World α → Prop} {T : Evaluator α → Evaluator α → Prop}
    {setting setting' : Setting α} {time time' : α}
    (step : ∀ e e' w w', T e e' → R w w' →
      (e'.visit setting' time' w').1 = (e.visit setting time w).1 ∧
        R (e.visit setting time w).2 (e'.visit setting' time' w').2)
    {es es' : List (Evaluator α)} (same : List.Forall₂ T es es') {w w' : World α}
    (begins : R w w') :
    (visitAll setting' time' es' w').1 = (visitAll setting time es w).1 ∧
      R (visitAll setting time es w).2 (visitAll setting' time' es' w').2 := by
  induction same generalizing w w' with
  | nil => exact ⟨rfl, begins⟩
  | @cons e e' rest rest' first _ ih =>
    obtain ⟨outcome, middle⟩ := step e e' w w' first begins
    simp only [visitAll]
    rcases visited : e.visit setting time w with ⟨_ | report, v⟩ <;>
    rcases visited' : e'.visit setting' time' w' with ⟨_ | report', v'⟩ <;>
    rw [visited, visited'] at outcome middle <;>
    cases outcome
    · exact ⟨rfl, middle⟩
    · obtain ⟨outcome', last⟩ := ih middle
      rcases later : visitAll setting time rest v with ⟨_ | more, u⟩ <;>
      rcases later' : visitAll setting' time' rest' v' with ⟨_ | more', u'⟩ <;>
      rw [later, later'] at outcome' last <;>
      cases outcome' <;>
      simp only [later, later']
      · exact ⟨trivial, last⟩
      · exact ⟨trivial, last⟩

@[simp] theorem constants_visitAll (setting : Setting α) (time : α) (es : List (Evaluator α))
    (w : World α) :
    (visitAll setting time es w).2.constants = w.constants := by
  induction es generalizing w with
  | nil => rfl
  | cons e rest ih =>
    rcases visitAll_cons_world setting time e rest w with after | after
    · rw [after, Evaluator.constants_visit]
    · rw [after, ih, Evaluator.constants_visit]

theorem constants_of_visitAll {setting : Setting α} {time : α} {es : List (Evaluator α)}
    {w after : World α} {outcome : Outcome α StepReport}
    (passed : visitAll setting time es w = (outcome, after)) :
    after.constants = w.constants := by
  have kept := constants_visitAll setting time es w
  rwa [passed] at kept

theorem state_visitAll_other (setting : Setting α) (time : α) (es : List (Evaluator α))
    (w : World α) {other : String} (outside : other ∉ es.map Evaluator.name) :
    (visitAll setting time es w).2.states.get? other = w.states.get? other := by
  induction es generalizing w with
  | nil => rfl
  | cons e rest ih =>
    rw [List.map_cons, List.mem_cons, not_or] at outside
    have first := e.state_visit_other setting time w outside.1
    rcases visitAll_cons_world setting time e rest w with after | after
    · rw [after, first]
    · rw [after, ih _ outside.2, first]

/-- A pass leaves every well alone that it does not visit. -/
theorem agreeOn_visitAll {es : List (Evaluator α)} (noHook : ∀ e ∈ es, e.physical = none)
    (setting : Setting α) (time : α) (w : World α) {other : String}
    (outside : other ∉ es.map Evaluator.name) :
    World.AgreeOn other w (visitAll setting time es w).2 := by
  induction es generalizing w with
  | nil => exact .refl other w
  | cons e rest ih =>
    rw [List.map_cons, List.mem_cons, not_or] at outside
    have first := Evaluator.agreeOn_visit (noHook e List.mem_cons_self) setting time w outside.1
    rcases visitAll_cons_world setting time e rest w with after | after
    · rw [after]
      exact first
    · rw [after]
      exact first.trans
        (ih (fun e' member => noHook e' (List.mem_cons_of_mem _ member)) _ outside.2)

end Run
end WellControl
