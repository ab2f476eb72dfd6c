import WellControl.Proofs.Pass.Visit
import WellControl.Proofs.Plain

/-! # The report of a pass is what the pass changed

`StepReport.Difference` compares the worlds before and after a pass without looking at how the
pass ran: which of the visited wells stand on another mode, which are closed for a new reason,
which entries the record of closed completions has gained, and that no other well was touched.
Differences of passes over different wells compose (`StepReport.Difference.append`), so the
difference of a visit carries over to the pass. -/
set_option autoImplicit false

namespace WellControl
variable {α : Type}

namespace ClosureRecord

/-- Whether a well is closed for a reason for which it was not closed before. -/
def closedSince (before after : ClosureRecord α) (name : String) : Bool :=
  (Enumeration.members : List ClosureReason).any fun reason =>
    after.hasWell name (some reason) && !before.hasWell name (some reason)

theorem closedSince_eq_true_iff {before after : ClosureRecord α} {name : String} :
    before.closedSince after name = true ↔
      ∃ reason, (name, reason) ∈ after.wells.keys ∧ (name, reason) ∉ before.wells.keys := by
  have member : ∀ reason : ClosureReason, reason ∈ (Enumeration.members : List ClosureReason) := by
    intro reason
    cases reason <;> decide
  simp only [closedSince, List.any_eq_true, Bool.and_eq_true, hasWell, Catalog.has,
    Bool.not_eq_true', decide_eq_true_eq, decide_eq_false_iff_not]
  constructor
  · rintro ⟨reason, _, new⟩
    exact ⟨reason, new⟩
  · rintro ⟨reason, new⟩
    exact ⟨reason, member reason, new⟩

theorem mem_reasons {c : ClosureRecord α} {name : String} {reason : ClosureReason} :
    reason ∈ c.reasons name ↔ (name, reason) ∈ c.wells.keys := by
  simp only [reasons, closedWells, Catalog.keys, List.mem_map, List.mem_filter, Option.all_some,
    decide_eq_true_eq]
  constructor
  · rintro ⟨⟨⟨other, reason'⟩, at_⟩, ⟨listed, rfl⟩, rfl⟩
    exact ⟨_, listed, rfl⟩
  · rintro ⟨⟨⟨other, reason'⟩, at_⟩, listed, same⟩
    cases same
    exact ⟨_, ⟨listed, rfl⟩, rfl⟩

theorem any_reasons (before after : ClosureRecord α) (name : String) :
    ((after.reasons name).any fun reason => decide (reason ∉ before.reasons name)) =
      before.closedSince after name := by
  rw [Bool.eq_iff_iff, closedSince_eq_true_iff]
  simp only [List.any_eq_true, decide_eq_true_eq, mem_reasons]

theorem closedSince_congr {before before' after after' : ClosureRecord α} {name : String}
    (start : ∀ reason, before'.hasWell name (some reason) = before.hasWell name (some reason))
    (finish : ∀ reason, after'.hasWell name (some reason) = after.hasWell name (some reason)) :
    before'.closedSince after' name = before.closedSince after name := by
  simp only [closedSince, start, finish]

end ClosureRecord

variable [Scalar α]

def World.modeOf (w : World α) (e : Evaluator α) : Option (InjectorMode ⊕ ProducerMode) :=
  (w.states.get? e.name).map e.well.mode

namespace StepReport

/-- The report lists exactly what changed between two worlds as to the wells of a pass, and
nothing changed as to other wells. -/
structure Difference (report : StepReport) (es : List (Evaluator α)) (time : α)
    (before after : World α) : Prop where
  switched : report.switched =
    (es.filter fun e => decide (after.modeOf e ≠ before.modeOf e)).map Evaluator.name
  closedWells : report.closedWells =
    (es.filter fun e => before.closures.closedSince after.closures e.name).map Evaluator.name
  closedCompletions : after.closures.completions.entries =
    before.closures.completions.entries ++ report.closedCompletions.map fun k => (k, time)
  fresh : ∀ k ∈ report.closedCompletions, k ∉ before.closures.completions.keys
  elsewhere : ∀ name, name ∉ es.map Evaluator.name → World.AgreeOn name before after

namespace Difference
variable {report first second : StepReport} {es es' : List (Evaluator α)} {time : α}
  {before middle after : World α}

theorem nil (time : α) (w : World α) : Difference {} [] time w w :=
  ⟨rfl, rfl, by simp, by simp, fun name _ => .refl name w⟩

theorem modeOf_congr {e : Evaluator α} (agree : World.AgreeOn e.name before after) :
    after.modeOf e = before.modeOf e := by
  rw [World.modeOf, World.modeOf, agree.state]

/-- Completions that are added are new ones. -/
theorem fresh_of_closedCompletions
    (added : after.closures.completions.entries =
      before.closures.completions.entries ++ report.closedCompletions.map fun k => (k, time)) :
    ∀ k ∈ report.closedCompletions, k ∉ before.closures.completions.keys := by
  intro k member
  refine Catalog.fresh_of_entries_eq_append added ?_
  rw [List.map_map]
  exact List.mem_map.2 ⟨k, member, rfl⟩

/-- Passes over different wells, one after the other. -/
theorem append (one : Difference first es time before middle)
    (other : Difference second es' time middle after)
    (apart : ∀ e ∈ es, e.name ∉ es'.map Evaluator.name) :
    Difference (first.append second) (es ++ es') time before after := by
  have apart' : ∀ e ∈ es', e.name ∉ es.map Evaluator.name := by
    intro e member listed
    obtain ⟨d, visited, same⟩ := List.mem_map.1 listed
    exact apart d visited (List.mem_map.2 ⟨e, member, same.symm⟩)
  have added : after.closures.completions.entries = before.closures.completions.entries ++
      (first.append second).closedCompletions.map fun k => (k, time) := by
    rw [other.closedCompletions, one.closedCompletions, List.append_assoc]
    simp [StepReport.append]
  refine ⟨?_, ?_, added, fresh_of_closedCompletions added, ?_⟩
  · -- the second pass leaves the modes of the first wells, the first those of the second
    have early : ∀ e ∈ es, decide (middle.modeOf e ≠ before.modeOf e) =
        decide (after.modeOf e ≠ before.modeOf e) := by
      intro e member
      rw [modeOf_congr (other.elsewhere e.name (apart e member))]
    have late : ∀ e ∈ es', decide (after.modeOf e ≠ middle.modeOf e) =
        decide (after.modeOf e ≠ before.modeOf e) := by
      intro e member
      rw [modeOf_congr (one.elsewhere e.name (apart' e member))]
    simp only [StepReport.append, one.switched, other.switched, List.filter_append, List.map_append,
      List.filter_congr early, List.filter_congr late]
  · have early : ∀ e ∈ es, before.closures.closedSince middle.closures e.name =
        before.closures.closedSince after.closures e.name := by
      intro e member
      have agree := other.elsewhere e.name (apart e member)
      exact (ClosureRecord.closedSince_congr (fun _ => rfl) agree.wells).symm
    have late : ∀ e ∈ es', middle.closures.closedSince after.closures e.name =
        before.closures.closedSince after.closures e.name := by
      intro e member
      have agree := one.elsewhere e.name (apart' e member)
      exact ClosureRecord.closedSince_congr agree.wells fun _ => rfl
    simp only [StepReport.append, one.closedWells, other.closedWells, List.filter_append,
      List.map_append, List.filter_congr early, List.filter_congr late]
  · intro name outside
    rw [List.map_append, List.mem_append, not_or] at outside
    exact (one.elsewhere name outside.1).trans (other.elsewhere name outside.2)

end Difference

structure About (report : StepReport) (name : String) : Prop where
  switched : ∀ other ∈ report.switched, other = name
  closedWells : ∀ other ∈ report.closedWells, other = name
  closedCompletions : ∀ k ∈ report.closedCompletions, k.1 = name

/-- What can be said of one well: that it is switched, that it is closed, and of its completions. -/
theorem about (name : String) (switched closed : Bool) (ids : List Int) :
    About ⟨if switched then [name] else [], if closed then [name] else [],
      ids.map fun id => (name, id)⟩ name := by
  refine ⟨?_, ?_, ?_⟩
  · intro other member
    rw [List.mem_ite_nil_right, List.mem_singleton] at member
    exact member.2
  · intro other member
    rw [List.mem_ite_nil_right, List.mem_singleton] at member
    exact member.2
  · intro k member
    obtain ⟨id, _, rfl⟩ := List.mem_map.1 member
    rfl

omit [Scalar α] in
/-- A visit that neither switches its well nor closes anything of it reports nothing. -/
theorem ofVisit_same (name : String) (c : ClosureRecord α) : ofVisit name false c c = {} := by
  simp [ofVisit]

omit [Scalar α] in
/-- What a visit to a well says of its completions: exactly those added to the record. -/
theorem closedCompletions_ofVisit {name : String} {time : α} {before after : ClosureRecord α}
    (growth : before.Growth name time after) (switched : Bool) :
    after.completions.entries = before.completions.entries ++
      (ofVisit name switched before after).closedCompletions.map fun k => (k, time) := by
  obtain ⟨_, ids, added⟩ := growth
  have listed := ClosureRecord.Growth.closedCompletions_self added
  have fresh : ∀ id ∈ ids, id ∉ before.closedCompletions name := by
    intro id member closed
    refine Catalog.fresh_of_entries_eq_append added ?_
      (ClosureRecord.mem_closedCompletions.1 closed)
    rw [List.map_map]
    exact List.mem_map.2 ⟨id, member, rfl⟩
  have old : (before.closedCompletions name).filter
      (fun id => decide (id ∉ before.closedCompletions name)) = [] := by
    rw [List.filter_eq_nil_iff]
    intro id member
    simpa using member
  have new : ids.filter (fun id => decide (id ∉ before.closedCompletions name)) = ids := by
    rw [List.filter_eq_self]
    intro id member
    simpa using fresh id member
  simp only [ofVisit, listed, List.filter_append, old, new, List.nil_append, List.map_map]
  exact added

end StepReport

variable {setting : Setting α} {time : α}

theorem Evaluator.difference_visit {e : Evaluator α} (noHook : e.physical = none)
    {report : StepReport} {w after : World α}
    (visited : e.visit setting time w = (.ok report, after)) :
    report.Difference [e] time w after := by
  have growth := growth_visit noHook setting time w
  have apart := fun name (different : name ≠ e.name) =>
    agreeOn_visit noHook setting time w different
  rw [visited] at growth apart
  obtain ⟨s, switched, b, found, checked, _, rfl, rfl⟩ := visit_ok visited
  have added := StepReport.closedCompletions_ofVisit growth switched.isSome
  refine ⟨?_, ?_, added, StepReport.Difference.fresh_of_closedCompletions added, ?_⟩
  · have mode_before : w.modeOf e = some (e.well.mode s) := by
      rw [World.modeOf, found, Option.map_some]
    have mode_after : ((w.withState e.name switched).withBooks e.label b).modeOf e =
        some (e.well.mode (switched.getD s)) := by
      rw [World.modeOf, World.states_withBooks, w.state_withState_self found, Option.map_some]
    cases switched with
    | none => simp [StepReport.ofVisit, mode_before, mode_after]
    | some s' =>
      have differs := (switch_of_controlSwitch checked).mode_ne
      simp [StepReport.ofVisit, mode_before, mode_after, differs]
  · simp only [StepReport.ofVisit, ClosureRecord.any_reasons, World.closures_withBooks]
    cases closed : w.closures.closedSince b.closures e.name <;> simp [closed]
  · intro name outside
    exact apart name (by simpa using outside)

theorem difference_visitAll {es : List (Evaluator α)} (distinct : (es.map Evaluator.name).Nodup)
    (noHook : ∀ e ∈ es, e.physical = none) {report : StepReport} {w after : World α}
    (passed : visitAll setting time es w = (.ok report, after)) :
    report.Difference es time w after := by
  induction es generalizing w report with
  | nil =>
    simp only [visitAll, Prod.mk.injEq, Except.ok.injEq] at passed
    obtain ⟨rfl, rfl⟩ := passed
    exact .nil time w
  | cons e rest ih =>
    rw [List.map_cons, List.nodup_cons] at distinct
    obtain ⟨first, middle, more, visited, later, rfl⟩ := visitAll_cons_ok passed
    have one := Evaluator.difference_visit (noHook e List.mem_cons_self) visited
    have others := ih distinct.2 (fun d member => noHook d (List.mem_cons_of_mem _ member)) later
    exact one.append others (by simpa using distinct.1)

/-- A pass over different wells that ends without a fault reports exactly what it changed, whether
it writes into a journal that it is given or into one of its own. -/
theorem evaluateStep_reports_difference (config : Config α) (setting : Setting α) (time : α)
    (es : List (Evaluator α)) (w : World α) (distinct : (es.map Evaluator.name).Nodup)
    (noHook : ∀ e ∈ es, e.physical = none) :
    (∀ report after, evaluateStep config setting time es w = (.ok report, after) →
      report.Difference es time w after) ∧
    (∀ report lines after,
      evaluateAndReplay config setting time es w = (.ok (report, lines), after) →
        report.Difference es time w after) := by
  -- the constants and the journal have no part in a difference
  have within : ∀ (v : World α) report after,
      evaluateStep config setting time es v = (.ok report, after) →
        report.Difference es time v after := by
    intro v report after passed
    simp only [evaluateStep, World.within, Prod.mk.injEq] at passed
    obtain ⟨outcome, rfl⟩ := passed
    have ran : visitAll setting time es { v with constants := config.constants } =
        (.ok report, (visitAll setting time es { v with constants := config.constants }).2) :=
      Prod.ext outcome rfl
    obtain ⟨switched, closedWells, closedCompletions, fresh, elsewhere⟩ :=
      difference_visitAll distinct noHook ran
    exact ⟨switched, closedWells, closedCompletions, fresh, fun name outside =>
      ⟨(elsewhere name outside).state, (elsewhere name outside).wells,
        (elsewhere name outside).completions⟩⟩
  refine ⟨within w, ?_⟩
  intro report lines after passed
  rcases ran : evaluateStep config setting time es { w with journal := [] } with ⟨_ | found, last⟩
  · simp [evaluateAndReplay, ran, Except.map] at passed
  · simp only [evaluateAndReplay, ran, Except.map, Prod.mk.injEq, Except.ok.injEq] at passed
    obtain ⟨⟨rfl, _⟩, rfl⟩ := passed
    obtain ⟨switched, closedWells, closedCompletions, fresh, elsewhere⟩ := within _ found last ran
    exact ⟨switched, closedWells, closedCompletions, fresh, fun name outside =>
      ⟨(elsewhere name outside).state, (elsewhere name outside).wells,
        (elsewhere name outside).completions⟩⟩

/-- One well above its oil limit, one above its water cut, one below its least oil rate. -/
def threeWells : List (Producer ℚ) :=
  [{ Producer.plain "A" "G" with
      controls := { ProductionControls.free with modes := [.orat], oilRate := ⟨5, by decide⟩ } },
    { Producer.plain "B" "G" with
      connections := twoConnections
      distinct := twoConnections_distinct
      limits := { EconomicLimits.halfWater with workover := .con } },
    { Producer.plain "C" "G" with
      limits := { EconomicLimits.off with minOilRate := some ⟨2, by decide⟩ } }]

def threeStates : List (WellState ℚ) :=
  [.flowing "A" (-1, -9, 0) [], .flowing "B" (-6, -4, 0) [(-5, -1, 0), (-1, -3, 0)],
    .flowing "C" (0, -1, 0) []]

theorem threeWells_report_difference :
    StepReport.Difference ⟨["A"], ["C"], [("B", 1)]⟩
      (threeWells.map fun w => .plain (.producer w)) 7 (.ofStates threeStates)
      (evaluateStep .standard (.ofGroup ⟨"G", none, none, .empty⟩ threeWells) 7
        (threeWells.map fun w => .plain (.producer w)) (.ofStates threeStates)).2 :=
  (evaluateStep_reports_difference .standard (.ofGroup ⟨"G", none, none, .empty⟩ threeWells) 7
    (threeWells.map fun w => .plain (.producer w)) (.ofStates threeStates) (by decide)
    (by simp [Evaluator.plain])).1 _ _ (Prod.ext (by decide +kernel) rfl)

end WellControl
