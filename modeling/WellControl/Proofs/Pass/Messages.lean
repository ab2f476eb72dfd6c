import WellControl.Proofs.Pass.Call
import WellControl.Proofs.Pass.Visit
import WellControl.Proofs.Plain

/-! # Messages and times decide nothing

What a pass decides does not depend on whether closures are reported, nor on the time, nor on what
is in the journal.  Two passes that differ in these alone are followed in step: their worlds hold
the same states and the same closures, if at other times (`World.Alike`), and one journal gets what
the other gets, less the information (`Journal.Muted`). -/
set_option autoImplicit false

namespace WellControl

section Journals

namespace Journal

def withoutInfo (j : Journal) : Journal := j.filter fun r => decide (r.severity ≠ .info)

@[simp] theorem withoutInfo_nil : withoutInfo [] = [] := rfl

@[simp] theorem withoutInfo_append (j k : Journal) :
    withoutInfo (j ++ k) = withoutInfo j ++ withoutInfo k :=
  List.filter_append j k

@[simp] theorem withoutInfo_info (message : String) (j : Journal) :
    withoutInfo (.info message :: j) = withoutInfo j := rfl

@[simp] theorem withoutInfo_warning (tag message : String) (j : Journal) :
    withoutInfo (.warning tag message :: j) = .warning tag message :: withoutInfo j := rfl

/-- What has been added to one journal has been added to the other, less the information. -/
def Muted (before before' after after' : Journal) : Prop :=
  ∃ added, after = before ++ added ∧ after' = before' ++ added.withoutInfo

theorem Muted.refl (j k : Journal) : Muted j k j k :=
  ⟨[], (List.append_nil j).symm, (List.append_nil k).symm⟩

theorem Muted.trans {first first' second second' third third' : Journal}
    (earlier : Muted first first' second second') (later : Muted second second' third third') :
    Muted first first' third third' := by
  obtain ⟨added, rfl, rfl⟩ := earlier
  obtain ⟨more, rfl, rfl⟩ := later
  refine ⟨added ++ more, List.append_assoc first added more, ?_⟩
  rw [withoutInfo_append, List.append_assoc]

end Journal
end Journals

section Closures
variable {α : Type}

structure ClosureRecord.SameKeys (c d : ClosureRecord α) : Prop where
  wells : d.wells.keys = c.wells.keys
  completions : d.completions.keys = c.completions.keys

theorem Catalog.keys_insertNew {κ ν : Type} [DecidableEq κ] (c : Catalog κ ν) (k : κ) (v : ν) :
    (c.insertNew k v).2.keys = c.keys ++ if k ∈ c.keys then [] else [k] := by
  rw [keys, entries_insertNew, List.map_append]
  by_cases listed : k ∈ c.keys
  · rw [if_pos listed, if_pos listed]
    rfl
  · rw [if_neg listed, if_neg listed]
    rfl

namespace ClosureRecord.SameKeys
variable {c d : ClosureRecord α}

theorem refl (c : ClosureRecord α) : SameKeys c c := ⟨rfl, rfl⟩

theorem sameOf (same : SameKeys c d) (name : String) : SameOf name c d := by
  constructor
  · intro reason
    rw [hasWell, hasWell, Catalog.has, Catalog.has, same.wells]
  · intro id
    rw [hasCompletion, hasCompletion, Catalog.has, Catalog.has, same.completions]

theorem closeWell (same : SameKeys c d) (name : String) (reason : ClosureReason) (time time' : α) :
    SameKeys (c.closeWell name reason time).2 (d.closeWell name reason time').2 := by
  refine ⟨?_, same.completions⟩
  rw [ClosureRecord.closeWell, ClosureRecord.closeWell, Catalog.keys_insertNew,
    Catalog.keys_insertNew, same.wells]

theorem closeCompletion (same : SameKeys c d) (name : String) (id : Int) (time time' : α) :
    SameKeys (c.closeCompletion name id time).2 (d.closeCompletion name id time').2 := by
  refine ⟨same.wells, ?_⟩
  rw [ClosureRecord.closeCompletion, ClosureRecord.closeCompletion, Catalog.keys_insertNew,
    Catalog.keys_insertNew, same.completions]

theorem closedCompletions (same : SameKeys c d) (name : String) :
    d.closedCompletions name = c.closedCompletions name := by
  rw [ClosureRecord.closedCompletions, ClosureRecord.closedCompletions, same.completions]

theorem reasons (same : SameKeys c d) (name : String) : d.reasons name = c.reasons name := by
  have read : ∀ r : ClosureRecord α,
      r.reasons name = (r.wells.keys.filter fun k => k.1 = name).map Prod.snd := by
    intro r
    simp only [ClosureRecord.reasons, closedWells, Catalog.keys, List.filter_map, List.map_map,
      Option.all_some, eq_comm (a := name)]
    rfl
  rw [read, read, same.wells]

end ClosureRecord.SameKeys
end Closures

open ClosureRecord

variable {α : Type} [Scalar α]

omit [Scalar α] in
theorem StepReport.ofVisit_congr {before before' after after' : ClosureRecord α}
    (start : SameKeys before before') (finish : SameKeys after after') (name : String)
    (switched : Bool) :
    StepReport.ofVisit name switched before' after' = .ofVisit name switched before after := by
  simp only [ofVisit, start.reasons, finish.reasons, start.closedCompletions,
    finish.closedCompletions]

section Reviews

/-! ## A review gives only warnings, and a verdict only information -/

theorem EconomicLimits.withoutInfo_checkRates {l : EconomicLimits α} {t : PhaseTable}
    {rates : List α} {low : Bool} {notices : Journal}
    (checked : l.checkRates t rates = .ok (low, notices)) : notices.withoutInfo = notices := by
  obtain ⟨oil, -, checked⟩ := Outcome.bind_eq_ok.1 checked
  cases oil with
  | true =>
    cases checked
    rfl
  | false =>
    obtain ⟨gas, -, checked⟩ := Outcome.bind_eq_ok.1 checked
    cases gas with
    | true =>
      cases checked
      rfl
    | false =>
      obtain ⟨liquid, -, checked⟩ := Outcome.bind_eq_ok.1 checked
      cases liquid with
      | true =>
        cases checked
        rfl
      | false =>
        cases checked
        split <;> rfl

theorem RatioSource.withoutInfo_checkRatios (r : RatioSource α) (l : EconomicLimits α)
    (p : RatioProgress α) :
    (r.checkRatios l p).2.2.withoutInfo = (r.checkRatios l p).2.2 := by
  rw [checkRatios]
  split
  · rfl
  · dsimp only
    split
    all_goals
      dsimp only
      split <;> rfl

namespace Producer
variable {w : Producer α} {c d : ClosureRecord α}

theorem withoutInfo_closingNotices (w : Producer α) :
    w.closingNotices.withoutInfo = w.closingNotices := by
  rw [closingNotices, Journal.withoutInfo_append]
  congr 1
  all_goals split <;> rfl

theorem withoutInfo_workoverVerdict (w : Producer α) (report : RatioReport α) :
    (w.workoverVerdict report).2.withoutInfo = (w.workoverVerdict report).2 := by
  rw [workoverVerdict]
  split <;> rfl

theorem withoutInfo_reviewRatios (w : Producer α) (source : RatioSource α) {notices : Journal}
    (warned : notices.withoutInfo = notices) :
    (w.reviewRatios source notices).notices.withoutInfo =
      (w.reviewRatios source notices).notices := by
  have more := source.withoutInfo_checkRatios w.limits ⟨.fresh, 0⟩
  rw [reviewRatios]
  split
  · split
    · rename_i checked
      rw [checked] at more
      simp [warned, more]
    · rename_i p _ checked
      rw [checked] at more
      dsimp only
      split
      · simp [warned, more, w.withoutInfo_workoverVerdict p.report]
      · simp [warned, more]
  · exact warned

theorem withoutInfo_review (w : Producer α) (source : RatioSource α) (c : ClosureRecord α) :
    (w.review source c).notices.withoutInfo = (w.review source c).notices := by
  rw [review]
  split
  · rfl
  · rw [reviewRates]
    split
    · split
      · rfl
      · rename_i checked
        simp [EconomicLimits.withoutInfo_checkRates checked, w.withoutInfo_closingNotices]
      · rename_i checked
        exact w.withoutInfo_reviewRatios source (EconomicLimits.withoutInfo_checkRates checked)
    · exact w.withoutInfo_reviewRatios source rfl

theorem withoutInfo_carryOut (w : Producer α) (time : α) (c : ClosureRecord α) (v : Verdict) :
    (w.carryOut time c v).2.withoutInfo = [] := by
  cases v with
  | keep | closeForRate | closeForRatio => rfl
  | closeCompletion id =>
    simp only [carryOut]
    split <;> rfl

/-- A verdict is carried out alike at any time. -/
theorem sameKeys_carryOut (same : SameKeys c d) (time time' : α) (v : Verdict) :
    SameKeys (w.carryOut time c v).1 (w.carryOut time' d v).1 := by
  cases v with
  | keep => exact same
  | closeForRate | closeForRatio => exact same.closeWell w.name .economic time time'
  | closeCompletion id =>
    have closed := same.closeCompletion w.name id time time'
    simp only [carryOut, isPlugged_congr (closed.sameOf w.name)]
    split
    · exact closed.closeWell w.name .economic time time'
    · exact closed

end Producer
end Reviews

section Updates

def Evaluator.reporting (reported : Bool) (e : Evaluator α) : Evaluator α :=
  { e with writeMessages := reported }

structure Books.Alike (b b' a a' : Books α) : Prop where
  closures : SameKeys a.closures a'.closures
  journal : b.journal.Muted b'.journal a.journal a'.journal
  reductions : a'.reductions = a.reductions

variable {b b' : Books α}

theorem Producer.settle_reporting (w : Producer α) (source : RatioSource α) (time time' : α)
    (same : SameKeys b.closures b'.closures) (reductions : b'.reductions = b.reductions) :
    (w.settle source time' false b').1 = (w.settle source time true b).1 ∧
      Books.Alike b b' (w.settle source time true b).2 (w.settle source time' false b').2 := by
  have reviewed : w.review source b'.closures = w.review source b.closures :=
    review_congr source ((same.sameOf w.name).wells .economic)
  have warned := w.withoutInfo_review source b.closures
  cases verdict : (w.review source b.closures).verdict with
  | error f =>
    simp only [settle, reviewed, verdict, reductions, true_and]
    exact ⟨same, ⟨_, rfl, by rw [warned]⟩, rfl⟩
  | ok v =>
    simp only [settle, reviewed, verdict, reductions, true_and]
    refine ⟨sameKeys_carryOut same time time' v, ⟨_, List.append_assoc _ _ _, ?_⟩, rfl⟩
    simp [warned, w.withoutInfo_carryOut]

namespace Evaluator
variable {e : Evaluator α}

theorem updateBooks_reporting (noHook : e.physical = none) (constants : Constants α)
    (s : WellState α) (time time' : α) (same : SameKeys b.closures b'.closures)
    (reductions : b'.reductions = b.reductions) :
    ((e.reporting false).updateBooks constants s time' b').1 =
        ((e.reporting true).updateBooks constants s time b).1 ∧
      Books.Alike b b' ((e.reporting true).updateBooks constants s time b).2
        ((e.reporting false).updateBooks constants s time' b').2 := by
  have nothing : Books.Alike b b' b b' := ⟨same, .refl _ _, reductions⟩
  simp only [updateBooks, reporting, noHook]
  cases e.well with
  | injector w => exact ⟨rfl, nothing⟩
  | producer w =>
    dsimp only
    split
    · exact w.settle_reporting _ time time' same reductions
    · exact ⟨rfl, nothing⟩

end Evaluator
end Updates

section Visits

/-- Two worlds differ at most in the times of closures and in their journals. -/
structure World.Alike (w v : World α) : Prop where
  states : v.states = w.states
  closures : SameKeys w.closures v.closures
  reductions : v.reductions = w.reductions
  constants : v.constants = w.constants

structure World.Muted {β : Type} (w v : World α) (loud quiet : Outcome α β × World α) : Prop where
  outcome : quiet.1 = loud.1
  alike : loud.2.Alike quiet.2
  journal : w.journal.Muted v.journal loud.2.journal quiet.2.journal

variable {w v : World α}

theorem World.Alike.withState (alike : w.Alike v) (name : String) (s : Option (WellState α)) :
    (w.withState name s).Alike (v.withState name s) := by
  cases s with
  | none => exact alike
  | some s =>
    refine ⟨?_, alike.closures, alike.reductions, alike.constants⟩
    simp only [World.withState, alike.states]

theorem World.Alike.withBooks (alike : w.Alike v) (label : String) {b b' a a' : Books α}
    (books : b.Alike b' a a') : (w.withBooks label a).Alike (v.withBooks label a') := by
  refine ⟨alike.states, books.closures, ?_, alike.constants⟩
  simp only [World.withBooks, World.reductionsOf, alike.reductions, books.reductions]

theorem Evaluator.visit_reporting {e : Evaluator α} (noHook : e.physical = none)
    (setting : Setting α) (time time' : α) (alike : w.Alike v) :
    World.Muted w v ((e.reporting true).visit setting time w)
      ((e.reporting false).visit setting time' v) := by
  have read : v.states.state e.name = w.states.state e.name := by rw [alike.states]
  have checked : ∀ s, (e.reporting false).controlSwitch setting v.constants v.states s =
      (e.reporting true).controlSwitch setting w.constants w.states s := by
    intro s
    rw [alike.constants, alike.states]
    rfl
  unfold visit
  simp only [show ∀ on, (e.reporting on).name = e.name from fun _ => rfl, read, checked]
  cases w.states.state e.name with
  | error f => exact ⟨rfl, alike, .refl _ _⟩
  | ok s =>
    dsimp only
    cases (e.reporting true).controlSwitch setting w.constants w.states s with
    | error f => exact ⟨rfl, alike, .refl _ _⟩
    | ok switched =>
      have stated := alike.withState e.name switched
      have begins : SameKeys w.books.closures v.books.closures := alike.closures
      obtain ⟨outcome, books⟩ := updateBooks_reporting noHook w.constants (switched.getD s) time
        time' begins rfl
      simp only [World.constants_withState, World.books_withState, World.closures_withState,
        alike.constants]
      rcases loud : (e.reporting true).updateBooks w.constants (switched.getD s) time w.books with
        ⟨_ | _, a⟩ <;>
      rcases quiet :
        (e.reporting false).updateBooks w.constants (switched.getD s) time' v.books with
        ⟨_ | _, a'⟩ <;>
      rw [loud, quiet] at outcome books <;>
      cases outcome
      · exact ⟨rfl, stated.withBooks e.label books, books.journal⟩
      · refine ⟨?_, stated.withBooks e.label books, books.journal⟩
        exact congrArg Except.ok
          (StepReport.ofVisit_congr alike.closures books.closures e.name switched.isSome)

theorem visitAll_reporting {es : List (Evaluator α)} (noHook : ∀ e ∈ es, e.physical = none)
    (setting : Setting α) (time time' : α) (alike : w.Alike v) :
    World.Muted w v (visitAll setting time (es.map (·.reporting true)) w)
      (visitAll setting time' (es.map (·.reporting false)) v) := by
  have paired : List.Forall₂
      (fun loud quiet => ∃ e : Evaluator α, e.physical = none ∧ loud = e.reporting true ∧
        quiet = e.reporting false)
      (es.map (·.reporting true)) (es.map (·.reporting false)) := by
    rw [List.forall₂_map_left_iff, List.forall₂_map_right_iff, List.forall₂_same]
    intro e member
    exact ⟨e, noHook e member, rfl, rfl⟩
  -- the journals are followed from where the passes began
  have step : ∀ e e' loud quiet, (∃ d : Evaluator α, d.physical = none ∧ e = d.reporting true ∧
      e' = d.reporting false) →
      loud.Alike quiet ∧ w.journal.Muted v.journal loud.journal quiet.journal →
      (e'.visit setting time' quiet).1 = (e.visit setting time loud).1 ∧
        (e.visit setting time loud).2.Alike (e'.visit setting time' quiet).2 ∧
        w.journal.Muted v.journal (e.visit setting time loud).2.journal
          (e'.visit setting time' quiet).2.journal := by
    rintro _ _ loud quiet ⟨e, noHook, rfl, rfl⟩ ⟨alike, journal⟩
    obtain ⟨outcome, alike', journal'⟩ := Evaluator.visit_reporting noHook setting time time' alike
    exact ⟨outcome, alike', journal.trans journal'⟩
  obtain ⟨outcome, alike', journal⟩ := visitAll_alike
    (R := fun loud quiet => loud.Alike quiet ∧ w.journal.Muted v.journal loud.journal quiet.journal)
    step paired ⟨alike, .refl _ _⟩
  exact ⟨outcome, alike', journal⟩

end Visits

namespace Pass

def reporting (reported : Bool) (p : Pass α) : Pass α :=
  { p with evaluators := p.evaluators.map (·.reporting reported) }

/-- Passes that write into the journal of the world decide alike whether closures are reported or
not, at whatever times, and whatever is in the journal before. -/
theorem run_reporting (p : Pass α) (noHook : p.NoHook) (given : p.ownJournal = false)
    (time time' : α) (w : World α) (journal journal' : Journal) :
    World.Muted { w with journal } { w with journal := journal' }
      (({ p with time }.reporting true).run { w with journal })
      (({ p with time := time' }.reporting false).run { w with journal := journal' }) := by
  have alike : ({ p with time }.start { w with journal }).Alike
      ({ p with time := time' }.start { w with journal := journal' }) :=
    ⟨rfl, .refl _, rfl, rfl⟩
  obtain ⟨outcome, alike', muted⟩ := visitAll_reporting noHook p.setting time time' alike
  rw [run_eq, run_eq]
  simp only [start, given, Bool.false_eq_true, if_false] at outcome alike' muted
  simp only [reporting, start, finish, replayed, given, Bool.false_eq_true, if_false]
  refine ⟨congrArg (Except.map _) outcome, ?_, muted⟩
  exact ⟨alike'.states, alike'.closures, alike'.reductions, rfl⟩

/-- A pass over a well that is closed for its low rate, which should have ended the run, and one
whose only completion is closed for its water. -/
def talkative : Pass ℚ :=
  .ofGroup ⟨"G", none, none, .empty⟩
    [{ Producer.plain "P" "G" with
        limits := { EconomicLimits.off with minOilRate := some ⟨400, by decide⟩, endRun := true } },
      { Producer.plain "Q" "G" with
        connections := oneConnection
        distinct := oneConnection_distinct
        limits := { EconomicLimits.halfWater with workover := .con } }] 0

theorem talkative_muted :
    let w := World.ofStates [.flowing "P" (0, -100, 0) [], .flowing "Q" (-9, -1, 0) [(-9, -1, 0)]]
    let loud :=
      ({ talkative with time := 3 }.reporting true).run { w with journal := [.info "old"] }
    let quiet := ({ talkative with time := 4 }.reporting false).run { w with journal := [] }
    loud.2.journal.map Record.tag =
      [none, some "NOT_SUPPORTING_ENDRUN", none, none, none] ∧
    quiet.2.journal.map Record.tag = [some "NOT_SUPPORTING_ENDRUN"] ∧
    World.Muted { w with journal := [.info "old"] } { w with journal := [] } loud quiet := by
  intro w loud quiet
  refine ⟨by decide +kernel, by decide +kernel, ?_⟩
  exact run_reporting talkative (noHook_ofGroup _ _ _) rfl 3 4 w [.info "old"] []

end Pass
end WellControl
