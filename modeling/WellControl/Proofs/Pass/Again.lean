import WellControl.Proofs.Control.Settled
import WellControl.Proofs.Pass.Report

/-! # Passes that are repeated

A pass that ends well has reviewed its wells: reviewing them again in the states that it left adds
no closure (`Evaluator.Reviewed`).  Whether a second pass changes anything is therefore a matter of
the controls alone, and it changes nothing exactly when every well is settled
(`Evaluator.Settled`).  A well need not be settled after a pass.  The pass lets it go over to one
limit that it exceeds, while it may exceed another one, or its share of its group's target, which
is not compared in a pass in which the well has gone over to a limit of its own. -/
set_option autoImplicit false

namespace WellControl
open ClosureRecord

variable {α : Type} [Scalar α]

/-- Two worlds differ in nothing that a visit depends on. -/
structure World.Unchanged (before after : World α) : Prop where
  states : after.states = before.states
  closures : after.closures = before.closures
  constants : after.constants = before.constants

theorem World.Unchanged.trans {before middle after : World α} (first : Unchanged before middle)
    (second : Unchanged middle after) : Unchanged before after :=
  ⟨second.states.trans first.states, second.closures.trans first.closures,
    second.constants.trans first.constants⟩

theorem World.Unchanged.agreeOn {before after : World α} (same : Unchanged before after)
    (name : String) : AgreeOn name before after :=
  ⟨by rw [same.states], fun _ => by rw [same.closures], by rw [same.closures]⟩

namespace Evaluator
variable {e : Evaluator α} {setting : Setting α} {time : α} {w v after : World α}
  {report : StepReport}

def Settled (e : Evaluator α) (setting : Setting α) (constants : Constants α)
    (states : WellStates α) : Prop :=
  ∃ s, states.get? e.name = some s ∧ e.KeepsLimits constants s ∧
    e.KeepsShare setting constants states s

/-- The well has a state in which updates of it end well and add no closure, as long as there are
the same closures of the well. -/
def Reviewed (e : Evaluator α) (w : World α) : Prop :=
  ∃ s, w.states.get? e.name = some s ∧ ∀ time (b : Books α), SameOf e.name w.closures b.closures →
    (e.updateBooks w.constants s time b).1 = .ok () ∧
      (e.updateBooks w.constants s time b).2.closures = b.closures

theorem Reviewed.of_agreeOn (reviewed : e.Reviewed w) (agree : World.AgreeOn e.name w v)
    (constants : v.constants = w.constants) : e.Reviewed v := by
  obtain ⟨s, found, again⟩ := reviewed
  refine ⟨s, agree.state.trans found, fun time b same => ?_⟩
  rw [constants]
  exact again time b (agree.sameOf.trans same)

theorem reviewed_of_visit (noHook : e.physical = none)
    (visited : e.visit setting time w = (.ok report, after)) : e.Reviewed after := by
  obtain ⟨s, switched, b, found, -, updated, -, rfl⟩ := visit_ok visited
  refine ⟨switched.getD s, w.state_withState_self found switched, fun time' b' same => ?_⟩
  have ended := congrArg Prod.fst updated
  have left := congrArg Prod.snd updated
  rw [World.constants_withBooks, World.constants_withState]
  refine updateBooks_again noHook ended time' ?_
  rw [left]
  exact same

theorem visit_of_settled (settled : e.Settled setting w.constants w.states)
    (reviewed : e.Reviewed w) (time : α) :
    ∃ after, e.visit setting time w = (.ok {}, after) ∧ w.Unchanged after := by
  obtain ⟨s, found, limits, share⟩ := settled
  obtain ⟨s', found', again⟩ := reviewed
  obtain rfl := Option.some.inj (found.symm.trans found')
  obtain ⟨ended, kept⟩ := again time w.books (.refl _ _)
  have visited := visit_eq found (controlSwitch_eq_none_iff.2 ⟨limits, share⟩)
    (Prod.ext ended rfl)
  have reported : StepReport.ofVisit e.name false w.closures
      (e.updateBooks w.constants s time w.books).2.closures = {} := by
    rw [kept]
    exact StepReport.ofVisit_same e.name w.closures
  exact ⟨_, visited.trans (congrArg (fun r => (Except.ok r, _)) reported), rfl, kept, rfl⟩

theorem settled_of_visit (visited : e.visit setting time w = (.ok report, after))
    (kept : report.switched = []) :
    after.states = w.states ∧ e.Settled setting w.constants w.states := by
  obtain ⟨s, switched, b, found, checked, -, rfl, rfl⟩ := visit_ok visited
  cases switched with
  | some s' => simp [StepReport.ofVisit] at kept
  | none => exact ⟨rfl, s, found, controlSwitch_eq_none_iff.1 checked⟩

/-- Of a well that was reviewed before, a visit that does not switch it closes nothing. -/
theorem not_closed_of_visit (noHook : e.physical = none) {name : String}
    (reviewed : e.name = name → e.Reviewed w)
    (visited : e.visit setting time w = (.ok report, after)) (kept : name ∉ report.switched) :
    name ∉ report.closedWells ∧ (∀ id, (name, id) ∉ report.closedCompletions) ∧
      World.AgreeOn name w after := by
  by_cases own : e.name = name
  · obtain ⟨s', found', again⟩ := reviewed own
    subst own
    obtain ⟨s, switched, b, found, -, updated, rfl, rfl⟩ := visit_ok visited
    obtain rfl := Option.some.inj (found.symm.trans found')
    cases switched with
    | some _ => simp [StepReport.ofVisit] at kept
    | none =>
      have unchanged : b.closures = w.closures := by
        have left := (again time w.books (.refl _ _)).2
        rw [Option.getD_none] at updated
        rwa [updated] at left
      rw [Option.isSome_none, unchanged, StepReport.ofVisit_same]
      refine ⟨by simp, by simp, rfl, fun reason => ?_, ?_⟩
      · rw [World.closures_withBooks, unchanged]
      · rw [World.closures_withBooks, unchanged]
  · have agree := agreeOn_of_visit noHook visited (Ne.symm own)
    obtain ⟨s, switched, b, -, -, -, rfl, -⟩ := visit_ok visited
    have about : (StepReport.ofVisit e.name switched.isSome w.closures b.closures).About e.name :=
      StepReport.about e.name _ _ _
    exact ⟨fun member => own (about.closedWells _ member).symm,
      fun id member => own (about.closedCompletions _ member).symm, agree⟩

end Evaluator

section Runs
variable {setting : Setting α} {time : α} {es : List (Evaluator α)} {w after : World α}
  {report : StepReport}

theorem reviewed_of_visitAll (noHook : ∀ e ∈ es, e.physical = none)
    (alike : ∀ e ∈ es, ∀ d ∈ es, e.name = d.name → e = d)
    (passed : visitAll setting time es w = (.ok report, after)) : ∀ e ∈ es, e.Reviewed after := by
  induction es generalizing w report with
  | nil => simp
  | cons e rest ih =>
    obtain ⟨first, middle, more, visited, later, -⟩ := visitAll_cons_ok passed
    have noHook' : ∀ d ∈ rest, d.physical = none := fun d member =>
      noHook d (List.mem_cons_of_mem _ member)
    have reviewed := ih noHook' (fun d member d' member' =>
      alike d (List.mem_cons_of_mem _ member) d' (List.mem_cons_of_mem _ member')) later
    rw [List.forall_mem_cons]
    refine ⟨?_, reviewed⟩
    -- the rest of the pass leaves the well alone or reviews it once more
    by_cases again : e.name ∈ rest.map Evaluator.name
    · obtain ⟨d, member, same⟩ := List.mem_map.1 again
      obtain rfl := alike d (List.mem_cons_of_mem _ member) e List.mem_cons_self same
      exact reviewed d member
    · have agree := agreeOn_visitAll noHook' setting time middle again
      rw [later] at agree
      exact (Evaluator.reviewed_of_visit (noHook e List.mem_cons_self) visited).of_agreeOn agree
        (constants_of_visitAll later)

/-- A pass over wells that are settled and reviewed changes nothing. -/
theorem visitAll_of_settled
    (settled : ∀ e ∈ es, e.Settled setting w.constants w.states)
    (reviewed : ∀ e ∈ es, e.Reviewed w) (time : α) :
    ∃ after, visitAll setting time es w = (.ok {}, after) ∧ w.Unchanged after := by
  induction es generalizing w with
  | nil => exact ⟨w, rfl, rfl, rfl, rfl⟩
  | cons e rest ih =>
    rw [List.forall_mem_cons] at settled reviewed
    obtain ⟨middle, visited, same⟩ := e.visit_of_settled settled.1 reviewed.1 time
    have settled' : ∀ d ∈ rest, d.Settled setting middle.constants middle.states := by
      rw [same.constants, same.states]
      exact settled.2
    have reviewed' : ∀ d ∈ rest, d.Reviewed middle := fun d member =>
      (reviewed.2 d member).of_agreeOn (same.agreeOn d.name) same.constants
    obtain ⟨after, later, same'⟩ := ih settled' reviewed'
    refine ⟨after, ?_, same.trans same'⟩
    simp only [visitAll, visited, later]
    rfl

theorem settled_of_visitAll (passed : visitAll setting time es w = (.ok report, after))
    (kept : report.switched = []) :
    after.states = w.states ∧ ∀ e ∈ es, e.Settled setting w.constants w.states := by
  induction es generalizing w report with
  | nil =>
    simp only [visitAll, Prod.mk.injEq] at passed
    exact ⟨by rw [passed.2], by simp⟩
  | cons e rest ih =>
    obtain ⟨first, middle, more, visited, later, rfl⟩ := visitAll_cons_ok passed
    obtain ⟨kept, kept'⟩ := List.append_eq_nil_iff.1 kept
    obtain ⟨states, settled⟩ := Evaluator.settled_of_visit visited kept
    obtain ⟨states', settled'⟩ := ih later kept'
    rw [states, Evaluator.constants_of_visit visited] at settled'
    exact ⟨states'.trans states, List.forall_mem_cons.2 ⟨settled, settled'⟩⟩

theorem not_closed_of_reviewed (noHook : ∀ e ∈ es, e.physical = none) {name : String}
    (reviewed : ∀ e ∈ es, e.name = name → e.Reviewed w)
    (passed : visitAll setting time es w = (.ok report, after)) (kept : name ∉ report.switched) :
    name ∉ report.closedWells ∧ ∀ id, (name, id) ∉ report.closedCompletions := by
  induction es generalizing w report with
  | nil =>
    simp only [visitAll, Prod.mk.injEq, Except.ok.injEq] at passed
    obtain ⟨rfl, -⟩ := passed
    simp
  | cons e rest ih =>
    obtain ⟨first, middle, more, visited, later, rfl⟩ := visitAll_cons_ok passed
    rw [List.forall_mem_cons] at noHook reviewed
    simp only [StepReport.append, List.mem_append, not_or] at kept ⊢
    obtain ⟨wells, completions, agree⟩ :=
      Evaluator.not_closed_of_visit noHook.1 reviewed.1 visited kept.1
    obtain ⟨wells', completions'⟩ := ih noHook.2 (fun d member same =>
      (reviewed.2 d member same).of_agreeOn (same ▸ agree)
        (Evaluator.constants_of_visit visited)) later kept.2
    exact ⟨⟨wells, wells'⟩, fun id => ⟨completions id, completions' id⟩⟩

end Runs

namespace Pass

def Quiet (p : Pass α) (w : World α) : Prop :=
  ∃ lines after, p.run w = (.ok ({}, lines), after) ∧ after.states = w.states ∧
    after.closures = w.closures

/-- What a second pass does after a first one that ended well, with one evaluator for each well.
It changes nothing exactly when every well is settled in the states that the first one left, and so
if the first one reported no switch.  In any case it closes nothing of wells that it does not
switch. -/
theorem run_again (p : Pass α) (noHook : p.NoHook)
    (alike : ∀ e ∈ p.evaluators, ∀ d ∈ p.evaluators, e.name = d.name → e = d)
    {w after : World α} {report : StepReport} {lines : List (Int × String)}
    (ran : p.run w = (.ok (report, lines), after)) (time : α) (ownJournal : Bool)
    {next : World α} (states : next.states = after.states)
    (closures : next.closures = after.closures) :
    let second : Pass α := { p with time, ownJournal }
    (second.Quiet next ↔
      ∀ e ∈ p.evaluators, e.Settled p.setting p.config.constants after.states) ∧
    (report.switched = [] → second.Quiet next) ∧
    ∀ report' lines' last, second.run next = (.ok (report', lines'), last) →
      ∀ name, name ∉ report'.switched →
        name ∉ report'.closedWells ∧ ∀ id, (name, id) ∉ report'.closedCompletions := by
  obtain ⟨last, visited, rfl, rfl⟩ := run_eq_ok.1 ran
  have constants : last.constants = p.config.constants := constants_of_visitAll visited
  intro second
  have begins : last.Unchanged (second.start next) := ⟨states, closures, constants.symm⟩
  have reviewed : ∀ e ∈ p.evaluators, e.Reviewed (second.start next) := fun e member =>
    (reviewed_of_visitAll noHook alike visited e member).of_agreeOn (begins.agreeOn e.name)
      begins.constants
  have quiet (settled : ∀ e ∈ p.evaluators,
      e.Settled p.setting p.config.constants last.states) : second.Quiet next := by
    rw [← begins.states] at settled
    obtain ⟨left, passed, same⟩ := visitAll_of_settled settled reviewed time
    exact ⟨_, _, run_eq_ok.2 ⟨left, passed, rfl, rfl⟩, same.states, same.closures⟩
  refine ⟨⟨?_, quiet⟩, ?_, ?_⟩
  · rintro ⟨_, _, ran', -, -⟩
    obtain ⟨left, passed, -, -⟩ := run_eq_ok.1 ran'
    have settled := (settled_of_visitAll passed rfl).2
    rw [begins.states] at settled
    exact settled
  · intro kept
    obtain ⟨same, settled⟩ := settled_of_visitAll visited kept
    rw [← same] at settled
    exact quiet settled
  · intro report' lines' last' ran' name kept
    obtain ⟨left, passed, -, -⟩ := run_eq_ok.1 ran'
    exact not_closed_of_reviewed noHook (fun e member _ => reviewed e member) passed kept

theorem not_quiet_of_reports {p : Pass α} {w : World α} {report : StepReport}
    {lines : List (Int × String)} (reports : (p.run w).1 = .ok (report, lines))
    (something : report ≠ {}) : ¬ p.Quiet w := by
  rintro ⟨lines', after, ran, -, -⟩
  rw [ran] at reports
  exact something (congrArg Prod.fst (Except.ok.inj reports)).symm

end Pass

/-- A producer that may not fall below a pressure of 1000 and is closed below 500 of oil. -/
def chokedPass : Pass ℚ :=
  .ofGroup ⟨"G", none, none, .empty⟩
    [{ Producer.plain "P" "G" with
        controls := { ProductionControls.free with modes := [.bhp], bhpLimit := ⟨1000, by decide⟩ }
        limits := { EconomicLimits.off with minOilRate := some ⟨500, by decide⟩ } }] 0

def chokedWorld : World ℚ := .ofStates [{ WellState.flowing "P" (0, -100, 0) [] with bhp := 900 }]

/-- The first pass switches and closes the well, the second one leaves it at that. -/
theorem chokedPass_quiet : chokedPass.Quiet (chokedPass.run chokedWorld).2 := by
  have settled : ∀ e ∈ chokedPass.evaluators,
      e.Settled chokedPass.setting chokedPass.config.constants
        (chokedPass.run chokedWorld).2.states := by
    intro e member
    obtain rfl := List.mem_singleton.1 member
    obtain ⟨s, found, mode⟩ : ∃ s, (chokedPass.run chokedWorld).2.states.get? "P" = some s ∧
        s.productionControl = .bhp := Option.map_eq_some_iff.1 (by decide +kernel)
    refine ⟨s, found, ?_, .inr ⟨_, _, _, rfl, rfl, rfl⟩⟩
    -- the only limit that is enabled is the one that the well runs on
    intro m _ enabled other
    have only : m = .bhp := List.mem_singleton.1 (of_decide_eq_true enabled)
    exact absurd (only.trans mode.symm) other
  exact (chokedPass.run_again (Pass.noHook_ofGroup _ _ _) (by simp [chokedPass, Pass.ofGroup])
    (show chokedPass.run chokedWorld = (.ok (⟨["P"], ["P"], []⟩, []), _) from
      Prod.ext (by decide +kernel) rfl) 0 false rfl rfl).1.2 settled

/-- A producer that may not fall below a pressure of 1000 nor exceed 50 of oil. -/
def tornPass : Pass ℚ :=
  .ofGroup ⟨"G", none, none, .empty⟩
    [{ Producer.plain "P" "G" with
        controls := { ProductionControls.free with
          modes := [.bhp, .orat]
          bhpLimit := ⟨1000, by decide⟩
          oilRate := ⟨50, by decide⟩ } }] 0

/-- A producer that is closed below 80 of oil, and then once more as one of a group that may
produce 50. -/
def doubledPass : Pass ℚ :=
  let first : Producer ℚ := { Producer.plain "P" "F" with
    limits := { EconomicLimits.off with minOilRate := some ⟨80, by decide⟩ } }
  let group : WellGroup ℚ :=
    ⟨"G", none, some ⟨.orat, some ⟨50, by decide⟩, none, none, none, none⟩, .empty⟩
  let p := Pass.ofGroup group [.plain "P" "G"] 0
  { p with
    setting.schedule.groups := p.setting.schedule.groups.put "F" ⟨"F", none, none, .empty⟩
    evaluators := .plain (.producer first) :: p.evaluators }

/-- A second pass may switch a well once more, and it may close a well that has two evaluators, of
which the second one has cut the rates after the first one had reviewed them. -/
theorem tornPass_not_quiet :
    tornPass.NoHook ∧
    (tornPass.run chokedWorld).1 = .ok (⟨["P"], [], []⟩, []) ∧
    ¬ tornPass.Quiet (tornPass.run chokedWorld).2 ∧
    doubledPass.NoHook ∧
    (doubledPass.run chokedWorld).1 = .ok (⟨["P"], [], []⟩, []) ∧
    ¬ doubledPass.Quiet (doubledPass.run chokedWorld).2 := by
  have again : (tornPass.run (tornPass.run chokedWorld).2).1 = .ok (⟨["P"], [], []⟩, []) := by
    decide +kernel
  have again' : (doubledPass.run (doubledPass.run chokedWorld).2).1 =
      .ok (⟨[], ["P"], []⟩, []) := by
    decide +kernel
  exact ⟨Pass.noHook_ofGroup _ _ _, by decide +kernel, Pass.not_quiet_of_reports again (by decide),
    by simp [Pass.NoHook, doubledPass, Pass.ofGroup, Evaluator.plain], by decide +kernel,
    Pass.not_quiet_of_reports again' (by decide)⟩

end WellControl
