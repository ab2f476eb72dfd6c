import Mathlib.Data.List.Basic
import Mathlib.Data.List.Perm.Basic
import WellControl.Proofs.Group.GuideRates
import WellControl.Proofs.Pass.Report

/-! # The order of a pass

Where all guide rates are given, a visit reads nothing but the state and the closures of its own
well, so what it does (`Effect`) is settled before the pass begins.  A pass over different wells
leaves the world it began in with the effects of all visits merged into it (`Merged`).  Merging them
in another order makes no difference but to the order in which closures and messages are listed. -/
set_option autoImplicit false

namespace WellControl

/-- A catalog is known from its keys, in their order, and the value of each. -/
theorem Catalog.eq_of_get? {κ ν : Type} [DecidableEq κ] {c d : Catalog κ ν}
    (keys : c.keys = d.keys) (values : ∀ k, c.get? k = d.get? k) : c = d := by
  have listed (c : Catalog κ ν) :
      c.entries = c.keys.filterMap fun k => (c.get? k).map (Prod.mk k) := by
    rw [Catalog.keys, List.filterMap_map]
    refine List.filterMap_some.symm.trans (List.filterMap_congr fun e member => ?_)
    rw [Function.comp_apply, get?_eq_some_iff.2 member, Option.map_some]
  refine Catalog.ext ?_
  rw [listed c, listed d, keys]
  simp only [values]

namespace World
variable {α : Type} [Scalar α]

@[simp] theorem keys_withState (w : World α) (name : String) (new : Option (WellState α)) :
    (w.withState name new).states.keys = w.states.keys := by
  cases new with
  | none => rfl
  | some s => exact Catalog.keys_mapValues _ _

theorem get?_withState (w : World α) (name : String) (new : Option (WellState α)) :
    (w.withState name new).states.get? name = (w.states.get? name).map fun s => new.getD s := by
  cases new with
  | none => simp [withState]
  | some s => simp [withState, Catalog.adjust, Catalog.get?_mapValues]

end World

namespace StepReport

def all (parts : List StepReport) : StepReport := parts.foldr append {}

end StepReport

/-- What a visit does: the state that it puts in place of the well's, if any, the closures it
adds and the messages it writes. -/
structure Effect (α : Type) where
  switched : Option (WellState α)
  closesWell : Bool
  completions : List Int
  notices : Journal
deriving Inhabited

namespace Effect
variable {α : Type}

def report (f : Effect α) (name : String) : StepReport where
  switched := if f.switched.isSome then [name] else []
  closedWells := if f.closesWell then [name] else []
  closedCompletions := f.completions.map fun id => (name, id)

theorem ofVisit_eq {f : Effect α} {name : String} {time : α} {before after : ClosureRecord α}
    (adds : before.Adds name time f.closesWell f.completions after) :
    .ofVisit name f.switched.isSome before after = f.report name := by
  have closed : before.closedSince after name = f.closesWell := by
    rw [Bool.eq_iff_iff, ClosureRecord.closedSince_eq_true_iff]
    constructor
    · rintro ⟨reason, listed, new⟩
      by_contra kept
      rw [Catalog.keys, adds.wells, if_neg kept, List.append_nil] at listed
      exact new listed
    · intro closes
      have wells := adds.wells
      rw [if_pos closes] at wells
      refine ⟨.economic, ?_, Catalog.fresh_of_entries_eq_append wells (by simp)⟩
      rw [Catalog.keys, wells, List.map_append]
      exact List.mem_append_right _ (by simp)
  have completions :
      (StepReport.ofVisit name f.switched.isSome before after).closedCompletions =
        f.completions.map fun id => (name, id) := by
    have listed := StepReport.closedCompletions_ofVisit adds.growth f.switched.isSome
    rw [adds.completions, List.append_cancel_left_eq] at listed
    have keys := congrArg (List.map Prod.fst) listed
    simpa only [List.map_map, Function.comp_def, List.map_id'] using keys.symm
  rw [report, ← completions, ← closed, ← ClosureRecord.any_reasons]
  rfl

end Effect

variable {α : Type} [Scalar α]

structure Effect.Leads (f : Effect α) (name : String) (time : α) (before after : World α) :
    Prop where
  states : after.states = (before.withState name f.switched).states
  closures : before.closures.Adds name time f.closesWell f.completions after.closures
  journal : after.journal = before.journal ++ f.notices
  constants : after.constants = before.constants

/-- The effect of a visit in every world that agrees with a given one on the well. -/
def Evaluator.Does (e : Evaluator α) (setting : Setting α) (time : α) (w : World α)
    (f : Effect α) : Prop :=
  ∀ v, World.AgreeOn e.name w v → v.constants = w.constants → ∃ after,
    e.visit setting time v = (.ok (f.report e.name), after) ∧ f.Leads e.name time v after

namespace Evaluator
variable {e d : Evaluator α} {setting : Setting α} {time : α} {w v after : World α} {f : Effect α}

/-- A check of the controls reads no state but the well's own. -/
def SelfReliant (e : Evaluator α) (setting : Setting α) : Prop :=
  ∀ constants states states' s,
    e.controlSwitch setting constants states' s = e.controlSwitch setting constants states s

theorem Does.of_agreeOn (does : e.Does setting time w f) (agree : World.AgreeOn e.name w v)
    (constants : v.constants = w.constants) : e.Does setting time v f :=
  fun u agree' constants' => does u (agree.trans agree') (constants'.trans constants)

/-- What a visit that ends well has done it does in every world that agrees on the well. -/
theorem exists_does (noHook : e.physical = none) (reliant : e.SelfReliant setting)
    {report : StepReport} (visited : e.visit setting time w = (.ok report, after)) :
    ∃ f, e.Does setting time w f := by
  obtain ⟨s, switched, b, found, checked, updated, -, -⟩ := visit_ok visited
  obtain ⟨outcome, closes, ids, notices, alike⟩ :=
    updateBooks_local noHook w.constants (switched.getD s) time w.closures
  have ended : outcome = .ok () := by
    rw [← (alike w.books (.refl _ _)).1, updated]
  refine ⟨⟨switched, closes, ids, notices⟩, fun v agree constants => ?_⟩
  obtain ⟨outcome_eq, adds, written⟩ := alike v.books agree.sameOf
  rw [ended] at outcome_eq
  have updated' : e.updateBooks v.constants (switched.getD s) time v.books =
      (.ok (), (e.updateBooks w.constants (switched.getD s) time v.books).2) := by
    rw [constants]
    exact Prod.ext outcome_eq rfl
  have checked' : e.controlSwitch setting v.constants v.states s = .ok switched := by
    rw [constants, reliant w.constants w.states v.states s, checked]
  have visited := visit_eq (agree.state.trans found) checked' updated'
  have reported := Effect.ofVisit_eq (f := ⟨switched, closes, ids, notices⟩) adds
  exact ⟨_, visited.trans (congrArg (fun r => (Except.ok r, _)) reported), rfl, adds, written,
    v.constants_withState e.name switched⟩

end Evaluator

structure Merged (effects : Evaluator α → Effect α) (es : List (Evaluator α)) (time : α)
    (before after : World α) : Prop where
  keys : after.states.keys = before.states.keys
  visited : ∀ e ∈ es, after.states.get? e.name =
    (before.states.get? e.name).map fun s => (effects e).switched.getD s
  unvisited : ∀ name, name ∉ es.map Evaluator.name →
    after.states.get? name = before.states.get? name
  wells : after.closures.wells.entries = before.closures.wells.entries ++ es.flatMap fun e =>
    if (effects e).closesWell then [((e.name, ClosureReason.economic), time)] else []
  completions : after.closures.completions.entries =
    before.closures.completions.entries ++ es.flatMap fun e =>
      (effects e).completions.map fun id => ((e.name, id), time)
  journal : after.journal = before.journal ++ es.flatMap fun e => (effects e).notices

namespace Merged
variable {effects : Evaluator α → Effect α} {es es' : List (Evaluator α)} {time : α}
  {w middle after after' : World α}

theorem nil (effects : Evaluator α → Effect α) (time : α) (w : World α) :
    Merged effects [] time w w where
  keys := rfl
  visited := by simp
  unvisited _ _ := rfl
  wells := by simp
  completions := by simp
  journal := by simp

/-- The effect of the first visit is not undone by those of the visits to other wells. -/
theorem cons {e : Evaluator α} (first : (effects e).Leads e.name time w middle)
    (rest : Merged effects es time middle after) (apart : e.name ∉ es.map Evaluator.name) :
    Merged effects (e :: es) time w after where
  keys := by rw [rest.keys, first.states, World.keys_withState]
  visited d member := by
    rcases List.mem_cons.1 member with rfl | later
    · rw [rest.unvisited _ apart, first.states, World.get?_withState]
    · have different : d.name ≠ e.name := fun same =>
        apart (same ▸ List.mem_map_of_mem later)
      rw [rest.visited d later, first.states, w.state_withState_other different]
  unvisited name outside := by
    rw [List.map_cons, List.mem_cons, not_or] at outside
    rw [rest.unvisited name outside.2, first.states, w.state_withState_other outside.1]
  wells := by rw [rest.wells, first.closures.wells, List.flatMap_cons, List.append_assoc]
  completions := by
    rw [rest.completions, first.closures.completions, List.flatMap_cons, List.append_assoc]
  journal := by rw [rest.journal, first.journal, List.flatMap_cons, List.append_assoc]

theorem states_eq (merged : Merged effects es time w after)
    (merged' : Merged effects es' time w after') (order : es'.Perm es) :
    after'.states = after.states := by
  refine Catalog.eq_of_get? (merged'.keys.trans merged.keys.symm) fun name => ?_
  by_cases visited : name ∈ es.map Evaluator.name
  · obtain ⟨e, member, rfl⟩ := List.mem_map.1 visited
    rw [merged.visited e member, merged'.visited e (order.mem_iff.2 member)]
  · have outside : name ∉ es'.map Evaluator.name := fun listed =>
      visited ((order.map Evaluator.name).mem_iff.1 listed)
    rw [merged.unvisited name visited, merged'.unvisited name outside]

theorem wells_perm (merged : Merged effects es time w after)
    (merged' : Merged effects es' time w after') (order : es'.Perm es) :
    after'.closures.wells.entries.Perm after.closures.wells.entries := by
  rw [merged.wells, merged'.wells]
  exact (order.flatMap_right _).append_left _

theorem completions_perm (merged : Merged effects es time w after)
    (merged' : Merged effects es' time w after') (order : es'.Perm es) :
    after'.closures.completions.entries.Perm after.closures.completions.entries := by
  rw [merged.completions, merged'.completions]
  exact (order.flatMap_right _).append_left _

theorem journal_perm (merged : Merged effects es time w after)
    (merged' : Merged effects es' time w after') (order : es'.Perm es) :
    after'.journal.Perm after.journal := by
  rw [merged.journal, merged'.journal]
  exact (order.flatMap_right _).append_left _

end Merged

section Runs
variable {setting : Setting α} {time : α} {es : List (Evaluator α)} {w : World α}

/-- What the visits of a pass over different wells do is settled by the world it begins in. -/
theorem exists_does_of_visitAll (distinct : (es.map Evaluator.name).Nodup)
    (noHook : ∀ e ∈ es, e.physical = none) (reliant : ∀ e ∈ es, e.SelfReliant setting)
    {report : StepReport} {after : World α}
    (passed : visitAll setting time es w = (.ok report, after)) :
    ∀ e ∈ es, ∃ f, e.Does setting time w f := by
  induction es generalizing w report with
  | nil => simp
  | cons e rest ih =>
    rw [List.map_cons, List.nodup_cons] at distinct
    rw [List.forall_mem_cons] at noHook reliant
    obtain ⟨first, middle, more, visited, later, -⟩ := visitAll_cons_ok passed
    intro d member
    rcases List.mem_cons.1 member with rfl | member
    · exact Evaluator.exists_does noHook.1 reliant.1 visited
    · obtain ⟨f, does⟩ := ih distinct.2 noHook.2 reliant.2 later d member
      -- the first visit leaves the other wells as they are
      have different : d.name ≠ e.name := fun same =>
        distinct.1 (same ▸ List.mem_map_of_mem member)
      exact ⟨f, does.of_agreeOn (Evaluator.agreeOn_of_visit noHook.1 visited different).symm
        (Evaluator.constants_of_visit visited).symm⟩

/-- A pass over different wells ends well if every visit has its effect in the world it begins in,
and leaves that world with these effects. -/
theorem visitAll_of_does (distinct : (es.map Evaluator.name).Nodup)
    (noHook : ∀ e ∈ es, e.physical = none) {effects : Evaluator α → Effect α}
    (does : ∀ e ∈ es, e.Does setting time w (effects e)) :
    ∃ after, visitAll setting time es w =
        (.ok (.all (es.map fun e => (effects e).report e.name)), after) ∧
      Merged effects es time w after := by
  induction es generalizing w with
  | nil => exact ⟨w, rfl, .nil effects time w⟩
  | cons e rest ih =>
    rw [List.map_cons, List.nodup_cons] at distinct
    rw [List.forall_mem_cons] at noHook does
    obtain ⟨middle, visited, first⟩ := does.1 w (.refl _ w) rfl
    have later : ∀ d ∈ rest, d.Does setting time middle (effects d) := by
      intro d member
      have different : d.name ≠ e.name := fun same =>
        distinct.1 (same ▸ List.mem_map_of_mem member)
      exact (does.2 d member).of_agreeOn (Evaluator.agreeOn_of_visit noHook.1 visited different)
        first.constants
    obtain ⟨after, passed, merged⟩ := ih distinct.2 noHook.2 later
    refine ⟨after, ?_, .cons first merged distinct.1⟩
    simp only [visitAll, visited, passed]
    rfl

end Runs

/-- A pass over different wells whose guide rates are all given ends well in any order if it does
in one.  It leaves the same states and, but for their order, the same closures and messages, and it
reports the same of each well. -/
theorem Pass.run_of_perm (p : Pass α) (noHook : p.NoHook)
    (distinct : (p.evaluators.map Evaluator.name).Nodup)
    (helper : ∀ e ∈ p.evaluators, e.helper = ShareQuery.byGuideRate)
    (given : ∀ e ∈ p.evaluators, e.GuideRatesGiven p.setting.schedule)
    {w after : World α} {report : StepReport} {lines : List (Int × String)}
    (ran : p.run w = (.ok (report, lines), after))
    {es : List (Evaluator α)} (order : es.Perm p.evaluators) :
    ∃ report' lines' after',
      ({ p with evaluators := es } : Pass α).run w = (.ok (report', lines'), after') ∧
      after'.states = after.states ∧
      after'.closures.wells.entries.Perm after.closures.wells.entries ∧
      after'.closures.completions.entries.Perm after.closures.completions.entries ∧
      after'.journal.Perm after.journal ∧ lines'.Perm lines ∧
      ∃ part : Evaluator α → StepReport, (∀ e, (part e).About e.name) ∧
        report = .all (p.evaluators.map part) ∧ report' = .all (es.map part) := by
  have reliant : ∀ e ∈ p.evaluators, e.SelfReliant p.setting := fun e member =>
    Evaluator.controlSwitch_states (helper e member) (given e member)
  obtain ⟨last, visited, rfl, rfl⟩ := run_eq_ok.1 ran
  choose! effects does using exists_does_of_visitAll distinct noHook reliant visited
  obtain ⟨_, passed, merged⟩ := visitAll_of_does distinct noHook does
  obtain ⟨rfl, rfl⟩ : report = .all (p.evaluators.map fun e => (effects e).report e.name) ∧
      last = _ := by simpa using visited.symm.trans passed
  obtain ⟨last', passed', merged'⟩ := visitAll_of_does
    ((order.map Evaluator.name).nodup_iff.2 distinct)
    (fun e member => noHook e (order.mem_iff.1 member))
    (fun e member => does e (order.mem_iff.1 member))
  have states := merged.states_eq merged' order
  have wells := merged.wells_perm merged' order
  have completions := merged.completions_perm merged' order
  have journal := merged.journal_perm merged' order
  refine ⟨_, p.replayed last', p.finish w last', run_eq_ok.2 ⟨last', passed', rfl, rfl⟩, states,
    wells, completions, ?_, ?_, fun e => (effects e).report e.name,
    fun e => StepReport.about e.name _ _ _, rfl, rfl⟩
  · simp only [finish]
    split
    · rfl
    · exact journal
  · simp only [replayed]
    split
    · exact (journal.map _).filter _
    · rfl

def threeGuideRates : GuideRates ℚ := .ofList [("A", 1), ("B", 1), ("C", 2)]

def guidedPass : Pass ℚ :=
  let group : WellGroup ℚ :=
    ⟨"G", none, some ⟨.orat, some ⟨10, by decide⟩, none, none, none, none⟩, .empty⟩
  let p := Pass.ofGroup group threeWells 7
  { p with evaluators := p.evaluators.map fun e => { e with guideRates := some threeGuideRates } }

/-- Visited backwards, the same wells are switched and closed. -/
theorem guidedPass_backwards :
    let forwards := (guidedPass.run (.ofStates threeStates)).2
    ∃ report lines after,
      ({ guidedPass with evaluators := guidedPass.evaluators.reverse } : Pass ℚ).run
        (.ofStates threeStates) = (.ok (report, lines), after) ∧
      after.states = forwards.states ∧
      after.closures.wells.entries.Perm forwards.closures.wells.entries ∧
      after.closures.completions.entries.Perm forwards.closures.completions.entries ∧
      after.journal.Perm forwards.journal ∧ lines.Perm [] ∧
      ∃ part : Evaluator ℚ → StepReport, (∀ e, (part e).About e.name) ∧
        ⟨["A", "B"], ["C"], [("B", 1)]⟩ = StepReport.all (guidedPass.evaluators.map part) ∧
        report = .all (guidedPass.evaluators.reverse.map part) := by
  have noHook : guidedPass.NoHook := by
    simp [Pass.NoHook, guidedPass, Pass.ofGroup, Evaluator.plain]
  have helper : ∀ e ∈ guidedPass.evaluators, e.helper = ShareQuery.byGuideRate := by
    simp [guidedPass, Pass.ofGroup, Evaluator.plain]
  have given : ∀ e ∈ guidedPass.evaluators, e.GuideRatesGiven guidedPass.setting.schedule := by
    have own : ∀ e ∈ guidedPass.evaluators, e.name ∈ threeGuideRates.keys := by decide
    intro e member
    refine ⟨threeGuideRates, ?_, own e member, by decide⟩
    obtain ⟨_, _, rfl⟩ := List.mem_map.1 member
    rfl
  exact guidedPass.run_of_perm noHook (by decide) helper given (Prod.ext (by decide +kernel) rfl)
    (List.reverse_perm _)

end WellControl
