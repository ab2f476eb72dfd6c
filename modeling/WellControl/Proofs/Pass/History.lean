import WellControl.Proofs.Closure.Additions
import WellControl.Proofs.Pass.Report

/-! # Closures over the history of a run

A run is a history of passes with other changes between them, none of which touches the record of
closures.  What is recorded at some moment of a run stays recorded as it is, and once a well is
closed economically no closure of it is added any more (`ClosureRecord.Endures`).  A pass adds
closures only of producers that are predicted, are not stopped and are not closed economically, all
at its own time (`ClosureRecord.Additions`, `Evaluator.MayClose`). -/
set_option autoImplicit false

namespace WellControl

namespace Catalog
variable {κ ν : Type} [DecidableEq κ]

/-- `d` has what `c` has and, besides, only entries for which `new` holds. -/
structure Extends (new : κ → ν → Prop) (c d : Catalog κ ν) : Prop where
  kept : ∀ k v, c.get? k = some v → d.get? k = some v
  added : ∀ k v, d.get? k = some v → c.get? k = none → new k v

namespace Extends
variable {new new' : κ → ν → Prop} {c d middle : Catalog κ ν}

theorem refl (new : κ → ν → Prop) (c : Catalog κ ν) : Extends new c c :=
  ⟨fun _ _ => id, fun _ _ found missing => by simp [missing] at found⟩

theorem mono (extended : Extends new c d) (weaker : ∀ k v, new k v → new' k v) :
    Extends new' c d :=
  ⟨extended.kept, fun k v found missing => weaker k v (extended.added k v found missing)⟩

/-- An entry that is new at the end was added by the first or by the second. -/
theorem trans (first : Extends new c middle) (second : Extends new middle d) :
    Extends new c d := by
  refine ⟨fun k v found => second.kept k v (first.kept k v found), fun k v found missing => ?_⟩
  cases midway : middle.get? k with
  | none => exact second.added k v found midway
  | some v' =>
    obtain rfl := Option.some.inj ((second.kept k v' midway).symm.trans found)
    exact first.added k v' midway missing

theorem get?_eq (extended : Extends new c d) {k : κ} (never : ∀ v, ¬ new k v) :
    d.get? k = c.get? k := by
  cases missing : c.get? k with
  | some v => exact extended.kept k v missing
  | none =>
    rw [Option.eq_none_iff_forall_ne_some]
    intro v found
    exact never v (extended.added k v found missing)

theorem of_append {entries : List (κ × ν)} (grown : d.entries = c.entries ++ entries)
    (each : ∀ e ∈ entries, new e.1 e.2) : Extends new c d := by
  constructor
  · intro k v found
    rw [get?_eq_some_iff] at found ⊢
    exact grown ▸ List.mem_append_left _ found
  · intro k v found missing
    rw [get?_eq_some_iff, grown, List.mem_append] at found
    rcases found with old | added
    · simp [get?_eq_some_iff.2 old] at missing
    · exact each _ added

end Extends
end Catalog

namespace ClosureRecord
variable {α : Type}

structure Additions (time : α) (allowed : String → Prop) (before after : ClosureRecord α) :
    Prop where
  wells : before.wells.Extends (fun k t => t = time ∧ k.2 = .economic ∧ allowed k.1) after.wells
  completions : before.completions.Extends (fun k t => t = time ∧ allowed k.1) after.completions

/-- Every closure recorded before is recorded after, at the same time, and nothing was added for
wells that were closed economically before. -/
structure Endures (before after : ClosureRecord α) : Prop where
  wells : ∀ k t, before.wells.get? k = some t → after.wells.get? k = some t
  completions : ∀ k t, before.completions.get? k = some t → after.completions.get? k = some t
  final : ∀ name, before.hasWell name (some .economic) = true →
    (∀ reason, after.wells.get? (name, reason) = before.wells.get? (name, reason)) ∧
      ∀ id, after.completions.get? (name, id) = before.completions.get? (name, id)

variable {before middle after : ClosureRecord α} {time : α} {allowed : String → Prop}

theorem hasWell_eq_true_iff {c : ClosureRecord α} {name : String} {reason : ClosureReason} :
    c.hasWell name (some reason) = true ↔ ∃ t, c.wells.get? (name, reason) = some t := by
  rw [← Option.isSome_iff_exists, ← Option.ne_none_iff_isSome, ne_eq, Catalog.get?_eq_none_iff,
    not_not]
  exact Catalog.has_eq_true_iff

namespace Endures

theorem refl (c : ClosureRecord α) : Endures c c :=
  ⟨fun _ _ => id, fun _ _ => id, fun _ _ => ⟨fun _ => rfl, fun _ => rfl⟩⟩

theorem trans (first : Endures before middle) (second : Endures middle after) :
    Endures before after where
  wells k t recorded := second.wells k t (first.wells k t recorded)
  completions k t recorded := second.completions k t (first.completions k t recorded)
  final name closed := by
    obtain ⟨t, recorded⟩ := hasWell_eq_true_iff.1 closed
    have closed' := hasWell_eq_true_iff.2 ⟨t, first.wells _ t recorded⟩
    obtain ⟨wells, completions⟩ := first.final name closed
    obtain ⟨wells', completions'⟩ := second.final name closed'
    exact ⟨fun reason => (wells' reason).trans (wells reason),
      fun id => (completions' id).trans (completions id)⟩

end Endures

namespace Additions

theorem refl (time : α) (allowed : String → Prop) (c : ClosureRecord α) :
    Additions time allowed c c :=
  ⟨.refl _ _, .refl _ _⟩

theorem mono {allowed' : String → Prop} (added : Additions time allowed before after)
    (weaker : ∀ name, allowed name → allowed' name) : Additions time allowed' before after where
  wells := added.wells.mono fun k _ new => ⟨new.1, new.2.1, weaker k.1 new.2.2⟩
  completions := added.completions.mono fun k _ new => ⟨new.1, weaker k.1 new.2⟩

theorem trans (first : Additions time allowed before middle)
    (second : Additions time allowed middle after) : Additions time allowed before after :=
  ⟨first.wells.trans second.wells, first.completions.trans second.completions⟩

/-- Where additions are allowed only for wells that are not closed economically, closures endure. -/
theorem endures (added : Additions time allowed before after)
    (notClosed : ∀ name, allowed name → before.hasWell name (some .economic) = false) :
    Endures before after where
  wells := added.wells.kept
  completions := added.completions.kept
  final name closed := by
    have notAllowed : ¬ allowed name := fun may => by simp [notClosed name may] at closed
    exact ⟨fun _ => added.wells.get?_eq fun _ new => notAllowed new.2.2,
      fun _ => added.completions.get?_eq fun _ new => notAllowed new.2⟩

end Additions

theorem Growth.additions {name : String} (growth : Growth name time before after) :
    Additions time (· = name) before after := by
  obtain ⟨⟨reasons, economic, wells⟩, ids, completions⟩ := growth
  refine ⟨.of_append wells fun e member => ?_, .of_append completions fun e member => ?_⟩
  · obtain ⟨reason, listed, rfl⟩ := List.mem_map.1 member
    exact ⟨rfl, economic reason listed, rfl⟩
  · obtain ⟨_, _, rfl⟩ := List.mem_map.1 member
    exact ⟨rfl, rfl⟩

end ClosureRecord

variable {α : Type} [Scalar α]

structure Evaluator.MayClose (e : Evaluator α) (w : World α) (name : String) : Prop where
  named : e.name = name
  predicted : ∃ p, e.well = .producer p ∧ p.controls.prediction = true
  running : ∃ s, w.states.get? name = some s ∧ s.status ≠ .stop
  notClosed : w.closures.hasWell name (some .economic) = false

namespace Evaluator
variable {e : Evaluator α} {setting : Setting α} {constants : Constants α} {time : α}
  {states : WellStates α} {s s' : WellState α}

theorem Switch.status_eq (switch : e.Switch setting constants states s s') :
    s'.status = s.status := by
  cases switch with
  | injectorLimit | producerLimit => rfl
  | share => cases e.well <;> rfl

theorem status_of_controlSwitch {switched : Option (WellState α)}
    (checked : e.controlSwitch setting constants states s = .ok switched) :
    (switched.getD s).status = s.status := by
  cases switched with
  | none => rfl
  | some s' => exact (switch_of_controlSwitch checked).status_eq

theorem status_visit (e : Evaluator α) (setting : Setting α) (time : α) (w : World α)
    (name : String) :
    ((e.visit setting time w).2.states.get? name).map WellState.status =
      (w.states.get? name).map WellState.status := by
  rcases e.visit_world setting time w with same | ⟨s, switched, found, checked, after⟩
  · rw [same]
  · rw [after, World.states_withBooks]
    by_cases own : name = e.name
    · rw [own, w.state_withState_self found, found]
      exact congrArg some (status_of_controlSwitch checked)
    · rw [w.state_withState_other own]

theorem additions_visit (noHook : e.physical = none) (setting : Setting α) (time : α)
    (w : World α) :
    w.closures.Additions time (e.MayClose w) (e.visit setting time w).2.closures := by
  rcases e.visit_world setting time w with same | ⟨s, switched, found, checked, after⟩
  · rw [same]
    exact .refl _ _ _
  · rw [after, World.closures_withBooks]
    rcases updateBooks_adds noHook w.constants (switched.getD s) time w.books with
      unchanged | ⟨p, well, predicted, notExempt⟩
    · rw [unchanged]
      exact .refl _ _ _
    · have growth := growth_updateBooks noHook w.constants (switched.getD s) time w.books
      refine growth.additions.mono ?_
      rintro name rfl
      rw [ClosureRecord.exempts, Bool.or_eq_false_iff, WellState.isStopped,
        decide_eq_false_iff_not, status_of_controlSwitch checked] at notExempt
      exact ⟨rfl, ⟨p, well, predicted⟩, ⟨s, found, notExempt.1⟩, notExempt.2⟩

/-- What an evaluator may close after a visit to some well it might have closed before. -/
theorem MayClose.of_visit {d : Evaluator α} (noHook : d.physical = none) {w : World α}
    {name : String} (may : e.MayClose (d.visit setting time w).2 name) : e.MayClose w name := by
  obtain ⟨s', found', running⟩ := may.running
  have status := d.status_visit setting time w name
  rw [found', Option.map_some] at status
  obtain ⟨s, found, same⟩ := Option.map_eq_some_iff.1 status.symm
  refine ⟨may.named, may.predicted, ⟨s, found, same ▸ running⟩, ?_⟩
  rw [Bool.eq_false_iff]
  intro closed
  have stays := (growth_visit noHook setting time w).hasWell_of_hasWell closed
  simp [may.notClosed] at stays

end Evaluator

theorem additions_visitAll {setting : Setting α} {time : α} {es : List (Evaluator α)}
    (noHook : ∀ e ∈ es, e.physical = none) (w : World α) :
    w.closures.Additions time (fun name => ∃ e ∈ es, e.MayClose w name)
      (visitAll setting time es w).2.closures := by
  induction es generalizing w with
  | nil => exact .refl _ _ _
  | cons e rest ih =>
    have own := noHook e List.mem_cons_self
    have first := (Evaluator.additions_visit own setting time w).mono
      fun name may => (⟨e, List.mem_cons_self, may⟩ : ∃ d ∈ e :: rest, d.MayClose w name)
    rcases visitAll_cons_world setting time e rest w with after | after
    · rwa [after]
    · rw [after]
      refine first.trans
        ((ih (fun d member => noHook d (List.mem_cons_of_mem _ member)) _).mono ?_)
      rintro name ⟨d, member, may⟩
      exact ⟨d, List.mem_cons_of_mem _ member, may.of_visit own⟩

theorem Pass.additions_run (p : Pass α) (noHook : p.NoHook) (w : World α) :
    w.closures.Additions p.time (fun name => ∃ e ∈ p.evaluators, e.MayClose w name)
      (p.run w).2.closures := by
  rw [run_eq]
  have added : w.closures.Additions p.time
      (fun name => ∃ e ∈ p.evaluators, e.MayClose (p.start w) name)
      (visitAll p.setting p.time p.evaluators (p.start w)).2.closures :=
    additions_visitAll noHook (p.start w)
  refine added.mono ?_
  rintro name ⟨e, member, may⟩
  exact ⟨e, member, may.named, may.predicted, may.running, may.notClosed⟩

/-! ## Runs -/

inductive Event (α : Type) [Scalar α] where
  | pass (p : Pass α)
  /-- All of the world is replaced but the record. -/
  | change (next : World α)

def World.play (w : World α) : Event α → World α
  | .pass p => (p.run w).2
  | .change next => { next with closures := w.closures }

def World.playAll (w : World α) (history : List (Event α)) : World α := history.foldl World.play w

theorem World.playAll_append (w : World α) (earlier later : List (Event α)) :
    w.playAll (earlier ++ later) = (w.playAll earlier).playAll later :=
  List.foldl_append

theorem World.endures_play (w : World α) {event : Event α}
    (noHook : ∀ p, event = .pass p → p.NoHook) : w.closures.Endures (w.play event).closures := by
  cases event with
  | pass p =>
    refine (p.additions_run (noHook p rfl) w).endures ?_
    rintro name ⟨e, _, may⟩
    exact may.notClosed
  | change next => exact .refl w.closures

theorem World.endures_playAll (w : World α) {history : List (Event α)}
    (noHook : ∀ p, .pass p ∈ history → p.NoHook) :
    w.closures.Endures (w.playAll history).closures := by
  induction history generalizing w with
  | nil => exact .refl w.closures
  | cons event rest ih =>
    have first : w.closures.Endures (w.play event).closures := w.endures_play fun p same =>
      noHook p (same ▸ List.mem_cons_self)
    exact first.trans (ih (w.play event) fun p member => noHook p (List.mem_cons_of_mem _ member))

/-- What a run does to the record of closures.  From any moment to the end what is recorded stays,
at its time, and nothing is added for wells that are closed economically.  A pass adds closures at
its own time, those of wells economically, and only of producers among its evaluators that are
predicted, not stopped and not closed economically.  No closure is recorded twice. -/
theorem World.closures_over_history (w : World α) (history : List (Event α))
    (noHook : ∀ p, .pass p ∈ history → p.NoHook) :
    (∀ earlier later, history = earlier ++ later →
      (w.playAll earlier).closures.Endures (w.playAll history).closures) ∧
    (∀ earlier p later, history = earlier ++ .pass p :: later →
      (w.playAll earlier).closures.Additions p.time
        (fun name => ∃ e ∈ p.evaluators, e.MayClose (w.playAll earlier) name)
        (w.playAll (earlier ++ [.pass p])).closures) ∧
    (w.playAll history).closures.wells.keys.Nodup ∧
    (w.playAll history).closures.completions.keys.Nodup := by
  refine ⟨?_, ?_, Catalog.distinct _, Catalog.distinct _⟩
  · rintro earlier later rfl
    rw [playAll_append]
    exact World.endures_playAll _ fun p member => noHook p (List.mem_append_right _ member)
  · rintro earlier p later rfl
    rw [playAll_append]
    exact p.additions_run (noHook p (by simp)) _

def threeWellsPass (time : ℚ) : Pass ℚ := .ofGroup ⟨"G", none, none, .empty⟩ threeWells time

/-- Between two passes over three wells the water of one comes to its other completion. -/
def threeWellsRun : List (Event ℚ) :=
  [.pass (threeWellsPass 7),
    .change (.ofStates (threeStates.set 1 (.flowing "B" (-6, -4, 0) [(0, 0, 0), (-6, -4, 0)]))),
    .pass (threeWellsPass 9)]

/-- What the first pass records endures.  The second closes the last completion of that well. -/
theorem threeWells_closures_endure :
    let w := World.ofStates threeStates
    let between := w.playAll (threeWellsRun.take 2)
    let closures := (w.playAll threeWellsRun).closures
    (closures.wells.get? ("C", .economic) = some 7 ∧
      closures.completions.get? ("B", 1) = some 7) ∧
    (between.closures.Additions 9
        (fun name => ∃ e ∈ (threeWellsPass 9).evaluators, e.MayClose between name) closures ∧
      closures.wells.get? ("B", .economic) = some 9 ∧
      closures.completions.get? ("B", -2) = some 9) ∧
    closures.wells.keys.Nodup ∧ closures.completions.keys.Nodup := by
  have noHook : ∀ p, .pass p ∈ threeWellsRun → p.NoHook := by
    intro p member
    simp only [threeWellsRun, List.mem_cons, Event.pass.injEq, reduceCtorEq, List.not_mem_nil,
      or_false, false_or] at member
    rcases member with rfl | rfl <;> exact Pass.noHook_ofGroup _ _ _
  obtain ⟨endures, additions, distinct⟩ :=
    World.closures_over_history (.ofStates threeStates) threeWellsRun noHook
  have endures := endures (threeWellsRun.take 1) (threeWellsRun.drop 1) rfl
  have additions := additions (threeWellsRun.take 2) (threeWellsPass 9) [] rfl
  exact ⟨⟨endures.wells _ _ (by decide +kernel), endures.completions _ _ (by decide +kernel)⟩,
    ⟨additions, by decide +kernel, by decide +kernel⟩, distinct⟩

end WellControl
