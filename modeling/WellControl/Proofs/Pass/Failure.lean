import WellControl.Proofs.Closure.Additions
import WellControl.Proofs.Pass.Call
import WellControl.Proofs.Pass.Visit
import WellControl.Proofs.Plain

/-! # Passes that fail

A pass fails where one of its visits does.  The visits before it have left what a pass over them
alone leaves, and the failing visit adds nothing to that but, at most, what a check of the controls
that ended well has made of the well's own state (`Evaluator.Failure`). -/
set_option autoImplicit false

namespace WellControl
variable {α : Type} [Scalar α]

/-- How a visit fails, and the state of the well that it leaves then.  The states and the closures
are those before the visit. -/
inductive Evaluator.Failure (e : Evaluator α) (setting : Setting α) (constants : Constants α)
    (time : α) (states : WellStates α) (closures : ClosureRecord α) (fault : Fault α) :
    Option (WellState α) → Prop
  /-- There is no state of the well. -/
  | lookup (missing : states.get? e.name = none) (cause : fault = .unlisted e.name) :
      Failure e setting constants time states closures fault none
  /-- The check of the controls fails, and the state stays as it was. -/
  | controls {s : WellState α} (found : states.get? e.name = some s)
      (refused : e.controlSwitch setting constants states s = .error fault) :
      Failure e setting constants time states closures fault (some s)
  /-- The update fails, and the state stays as the check of the controls has left it. -/
  | update {s : WellState α} {switched : Option (WellState α)}
      (found : states.get? e.name = some s)
      (checked : e.controlSwitch setting constants states s = .ok switched)
      (refused : ∀ b : Books α, b.closures = closures →
        (e.updateBooks constants (switched.getD s) time b).1 = .error fault) :
      Failure e setting constants time states closures fault (some (switched.getD s))

namespace Evaluator
variable {e : Evaluator α} {setting : Setting α} {time : α} {w after : World α} {fault : Fault α}

/-- A visit that fails leaves the closures alone, and of the states all but the well's own. -/
theorem visit_error (noHook : e.physical = none)
    (failed : e.visit setting time w = (.error fault, after)) :
    after.closures = w.closures ∧
      (∀ other, other ≠ e.name → after.states.get? other = w.states.get? other) ∧
      e.Failure setting w.constants time w.states w.closures fault (after.states.get? e.name) := by
  have others : ∀ other, other ≠ e.name →
      (e.visit setting time w).2.states.get? other = w.states.get? other := fun _ =>
    e.state_visit_other setting time w
  rw [failed] at others
  cases found : w.states.get? e.name with
  | none =>
    have missing : w.states.state e.name = .error (.unlisted e.name) := by
      rw [WellStates.state, found]
    simp only [visit, missing, Prod.mk.injEq, Except.error.injEq] at failed
    obtain ⟨rfl, rfl⟩ := failed
    exact ⟨rfl, others, found ▸ .lookup found rfl⟩
  | some s =>
    cases checked : e.controlSwitch setting w.constants w.states s with
    | error f =>
      simp only [visit, WellStates.state_eq_ok.2 found, checked, Prod.mk.injEq,
        Except.error.injEq] at failed
      obtain ⟨rfl, rfl⟩ := failed
      exact ⟨rfl, others, found ▸ .controls found checked⟩
    | ok switched =>
      simp only [visit, WellStates.state_eq_ok.2 found, checked, World.constants_withState,
        World.books_withState] at failed
      rcases updated : e.updateBooks w.constants (switched.getD s) time w.books with ⟨f | _, b⟩
      · simp only [updated, Prod.mk.injEq, Except.error.injEq] at failed
        obtain ⟨rfl, rfl⟩ := failed
        refine ⟨?_, others, ?_⟩
        · have kept := closures_updateBooks_of_error noHook (congrArg Prod.fst updated)
          rwa [updated] at kept
        · rw [World.states_withBooks, w.state_withState_self found]
          refine .update found checked fun b' same => ?_
          obtain ⟨outcome, _, _, _, alike⟩ :=
            updateBooks_local noHook w.constants (switched.getD s) time w.closures
          rw [(alike b' (same ▸ .refl _ _)).1, ← (alike w.books (.refl _ _)).1, updated]
      · simp only [updated, Prod.mk.injEq, reduceCtorEq, false_and] at failed

end Evaluator

/-- A pass fails where its first visit that fails does, after the visits before it. -/
theorem visitAll_error {setting : Setting α} {time : α} {es : List (Evaluator α)}
    {w after : World α} {fault : Fault α}
    (failed : visitAll setting time es w = (.error fault, after)) :
    ∃ visited e rest report middle, es = visited ++ e :: rest ∧
      visitAll setting time visited w = (.ok report, middle) ∧
      e.visit setting time middle = (.error fault, after) := by
  induction es generalizing w with
  | nil => simp [visitAll] at failed
  | cons e rest ih =>
    rcases first : e.visit setting time w with ⟨f | report, middle⟩
    · simp only [visitAll, first] at failed
      exact ⟨[], e, rest, {}, w, rfl, rfl, first.trans failed⟩
    · rcases later : visitAll setting time rest middle with ⟨f | more, last⟩
      · simp only [visitAll, first, later] at failed
        obtain ⟨visited, e', rest', report', middle', rfl, passed, stopped⟩ :=
          ih (later.trans failed)
        refine ⟨e :: visited, e', rest', report.append report', middle', rfl, ?_, stopped⟩
        simp only [visitAll, first, passed]
      · simp [visitAll, first, later] at failed

/-- A pass that fails stops cleanly: there is a place in its list such that a pass over the
evaluators before it ends well, and what is left is what that pass leaves, but for the state of the
well at that place, which is as its visit has failed.  The constants are those from before. -/
theorem Pass.run_error (p : Pass α) (noHook : p.NoHook) {w after : World α} {fault : Fault α}
    (failed : p.run w = (.error fault, after)) :
    ∃ visited e rest result middle, p.evaluators = visited ++ e :: rest ∧
      ({ p with evaluators := visited } : Pass α).run w = (.ok result, middle) ∧
      after.closures = middle.closures ∧
      (∀ other, other ≠ e.name → after.states.get? other = middle.states.get? other) ∧
      e.Failure p.setting p.config.constants p.time middle.states middle.closures fault
        (after.states.get? e.name) ∧
      after.constants = w.constants := by
  obtain ⟨last, ran, rfl⟩ := run_eq_error.1 failed
  obtain ⟨visited, e, rest, report, middle, split, passed, stopped⟩ := visitAll_error ran
  have member : e ∈ p.evaluators := by simp [split]
  obtain ⟨closures, others, failure⟩ := Evaluator.visit_error (noHook e member) stopped
  have constants : middle.constants = p.config.constants := constants_of_visitAll passed
  rw [constants] at failure
  exact ⟨visited, e, rest, (report, p.replayed middle), p.finish w middle, split,
    run_eq_ok.2 ⟨middle, passed, rfl, rfl⟩, closures, others, failure, rfl⟩

/-- A pass over three wells of which the second one has to be compared completion by completion,
but has no rates of its connections. -/
def Pass.stopped : Pass ℚ :=
  .ofGroup ⟨"G", none, none, .empty⟩
    [.plain "A" "G",
      { Producer.plain "B" "G" with
        controls := { ProductionControls.free with modes := [.orat], oilRate := ⟨6, by decide⟩ }
        connections := twoConnections
        distinct := twoConnections_distinct
        limits := { EconomicLimits.halfWater with workover := .con } },
      .plain "C" "G"] 7

/-- The second well goes over to its oil limit before the pass fails. -/
theorem Pass.stopped_error :
    let w := World.ofStates [.flowing "A" (-1, -9, 0) [], .flowing "B" (-9, -8, 0) [],
      .flowing "C" (0, -1, 0) []]
    let after := (stopped.run w).2
    ∃ visited e rest result middle, stopped.evaluators = visited ++ e :: rest ∧
      ({ stopped with evaluators := visited } : Pass ℚ).run w = (.ok result, middle) ∧
      after.closures = middle.closures ∧
      (∀ other, other ≠ e.name → after.states.get? other = middle.states.get? other) ∧
      e.Failure stopped.setting stopped.config.constants 7 middle.states middle.closures
        (.missingPerforations "B" 0 2) (after.states.get? e.name) ∧
      after.constants = w.constants :=
  Pass.run_error stopped (noHook_ofGroup _ _ _) (Prod.ext (by decide +kernel) rfl)

end WellControl
