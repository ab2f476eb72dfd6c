import WellControl.Proofs.Pass.Visit
import WellControl.Proofs.Plain
import WellControl.Session.Controls

/-! # What checks of the controls leave alone

`ControlCheck.run` is one check of a well's controls on the states of all wells.  Whatever the
group helper answers, the check says that it switched the well exactly when the mode of the well's
own kind is another one than before, cuts the surface rates only when it puts the well under group
control, by the factor in the answer to the question that it put, and leaves everything else as it
was (`ControlCheck.Accounted`).  A run of checks therefore never touches what a single check leaves
alone. -/
set_option autoImplicit false

namespace WellControl
variable {α : Type} [Scalar α]

section Modes

def Well.otherMode (w : Well α) (s : WellState α) : ProducerMode ⊕ InjectorMode :=
  match w with
  | .injector _ => .inl s.productionControl
  | .producer _ => .inr s.injectionControl

def Well.noMode : Well α → InjectorMode ⊕ ProducerMode
  | .injector _ => .inl .none
  | .producer _ => .inr .none

/-- The modes of the well's own limits that its controls list. -/
def Well.limitModes : Well α → List (InjectorMode ⊕ ProducerMode)
  | .injector w => (InjectorMode.visitingOrder.filter w.controls.has).map .inl
  | .producer w => (ProducerMode.visitingOrder.filter w.controls.has).map .inr

/-- Neither of these modes is among those that stand for a limit. -/
theorem Well.not_mem_limitModes (w : Well α) :
    w.groupMode ∉ w.limitModes ∧ w.noMode ∉ w.limitModes := by
  cases w with
  | injector w =>
    have unvisited : .grup ∉ InjectorMode.visitingOrder ∧ .none ∉ InjectorMode.visitingOrder := by
      decide
    simp [groupMode, noMode, limitModes, unvisited]
  | producer w =>
    have unvisited : .grup ∉ ProducerMode.visitingOrder ∧ .none ∉ ProducerMode.visitingOrder := by
      decide
    simp [groupMode, noMode, limitModes, unvisited]

theorem Well.groupMode_ne_noMode (w : Well α) : w.groupMode ≠ w.noMode := by
  cases w <;> simp [groupMode, noMode]

end Modes

section Kept

/-- Two states differ at most in their control modes and their surface rates. -/
structure WellState.Kept (before after : WellState α) : Prop where
  name : after.name = before.name
  reservoirRates : after.reservoirRates = before.reservoirRates
  bhp : after.bhp = before.bhp
  thp : after.thp = before.thp
  potentials : after.potentials = before.potentials
  perforationRates : after.perforationRates = before.perforationRates
  status : after.status = before.status

omit [Scalar α] in
theorem WellState.Kept.refl (s : WellState α) : s.Kept s :=
  ⟨rfl, rfl, rfl, rfl, rfl, rfl, rfl⟩

omit [Scalar α] in
theorem WellState.Kept.trans {first second third : WellState α} (earlier : first.Kept second)
    (later : second.Kept third) : first.Kept third :=
  ⟨later.name.trans earlier.name, later.reservoirRates.trans earlier.reservoirRates,
    later.bhp.trans earlier.bhp, later.thp.trans earlier.thp,
    later.potentials.trans earlier.potentials,
    later.perforationRates.trans earlier.perforationRates, later.status.trans earlier.status⟩

end Kept

namespace Evaluator

/-- What a check makes of a well's state, beside whether it switched the well. -/
structure Transition (e : Evaluator α) (setting : Setting α) (constants : Constants α)
    (states : WellStates α) (switched : Prop) (s s' : WellState α) : Prop where
  flag : switched ↔ e.well.mode s' ≠ e.well.mode s
  quiet : ¬ switched → s' = s
  mode : switched → e.well.mode s' = e.well.groupMode ∨ e.well.mode s' ∈ e.well.limitModes
  named : switched → e.well.mode s' ≠ e.well.noMode
  uncut : ¬ (switched ∧ e.well.mode s' = e.well.groupMode) → s'.surfaceRates = s.surfaceRates
  /-- All rates are multiplied by the one factor that the helper gave to the question put. -/
  cut : switched → e.well.mode s' = e.well.groupMode →
    ∃ q share, e.groupQuestion setting constants states s = .ok q ∧ e.helper q = .ok share ∧
      share.exceeded = true ∧ s'.surfaceRates = s.surfaceRates.map (· * share.factor)
  otherMode : e.well.otherMode s' = e.well.otherMode s
  kept : s.Kept s'

variable {e : Evaluator α} {setting : Setting α} {constants : Constants α}
  {states : WellStates α} {s s' : WellState α} {switched : Prop}

theorem Transition.of_not_switched (quiet : ¬ switched) :
    e.Transition setting constants states switched s s where
  flag := ⟨fun flagged => absurd flagged quiet, fun different => absurd rfl different⟩
  quiet _ := rfl
  mode flagged := absurd flagged quiet
  named flagged := absurd flagged quiet
  uncut _ := rfl
  cut flagged := absurd flagged quiet
  otherMode := rfl
  kept := .refl s

/-- A state under another of the well's own limits has the surface rates that it had. -/
theorem Transition.of_limit (flagged : switched) (other : e.well.mode s' ≠ e.well.mode s)
    (limit : e.well.mode s' ∈ e.well.limitModes) (rates : s'.surfaceRates = s.surfaceRates)
    (otherMode : e.well.otherMode s' = e.well.otherMode s) (kept : s.Kept s') :
    e.Transition setting constants states switched s s' where
  flag := ⟨fun _ => other, fun _ => flagged⟩
  quiet unflagged := absurd flagged unflagged
  mode _ := .inr limit
  named _ unset := e.well.not_mem_limitModes.2 (unset ▸ limit)
  uncut _ := rates
  cut _ grouped := absurd (grouped ▸ limit) e.well.not_mem_limitModes.1
  otherMode := otherMode
  kept := kept

/-- A state that was cut to the well's share is under group control. -/
theorem Transition.of_share {q : ShareQuery α} {share : Share α} (flagged : switched)
    (free : e.well.mode s ≠ e.well.groupMode)
    (asked : e.groupQuestion setting constants states s = .ok q)
    (answer : e.helper q = .ok share) (exceeded : share.exceeded = true) :
    e.Transition setting constants states switched s
      (e.well.underGroup (s.scale share.factor)) where
  flag := by
    rw [Well.mode_underGroup]
    exact ⟨fun _ => free.symm, fun _ => flagged⟩
  quiet unflagged := absurd flagged unflagged
  mode _ := .inl (e.well.mode_underGroup _)
  named _ := by
    rw [Well.mode_underGroup]
    exact e.well.groupMode_ne_noMode
  uncut unflagged := absurd ⟨flagged, e.well.mode_underGroup _⟩ unflagged
  cut _ _ := ⟨q, share, asked, answer, exceeded, e.well.surfaceRates_underGroup _⟩
  otherMode := by
    cases e.well <;> rfl
  kept := by
    cases e.well <;> exact ⟨rfl, rfl, rfl, rfl, rfl, rfl, rfl⟩

theorem Transition.of_switch (switch : e.Switch setting constants states s s')
    (flagged : switched) : e.Transition setting constants states switched s s' := by
  have other := switch.mode_ne
  cases switch with
  | injectorLimit well visited enabled _ =>
    refine .of_limit flagged other ?_ rfl ?_ ⟨rfl, rfl, rfl, rfl, rfl, rfl, rfl⟩
    · rw [well]
      exact List.mem_map.2 ⟨_, List.mem_filter.2 ⟨visited, enabled⟩, rfl⟩
    · rw [well]
      rfl
  | producerLimit well visited enabled _ =>
    refine .of_limit flagged other ?_ rfl ?_ ⟨rfl, rfl, rfl, rfl, rfl, rfl, rfl⟩
    · rw [well]
      exact List.mem_map.2 ⟨_, List.mem_filter.2 ⟨visited, enabled⟩, rfl⟩
    · rw [well]
      rfl
  | share free asked answer exceeded => exact .of_share flagged free asked answer exceeded

end Evaluator

section Checks

structure ControlCheck (α : Type) [Scalar α] where
  evaluator : Evaluator α
  setting : Setting α
  constants : Constants α

namespace ControlCheck

def run (c : ControlCheck α) (states : WellStates α) : Outcome α Bool × WellStates α :=
  match states.state c.evaluator.name >>=
      c.evaluator.controlSwitch c.setting c.constants states with
  | .error f => (.error f, states)
  | .ok none => (.ok false, states)
  | .ok (some s) => (.ok true, states.adjust c.evaluator.name fun _ => s)

def runAll (checks : List (ControlCheck α)) (states : WellStates α) : WellStates α :=
  checks.foldl (fun states c => (c.run states).2) states

structure Accounted (c : ControlCheck α) (before : WellStates α) : Prop where
  /-- A check that answers no or fails changes nothing. -/
  quiet : (c.run before).1 ≠ .ok true → (c.run before).2 = before
  keys : (c.run before).2.keys = before.keys
  others : ∀ other, other ≠ c.evaluator.name → (c.run before).2.get? other = before.get? other
  own : ∀ s, before.get? c.evaluator.name = some s →
    ∃ s', (c.run before).2.get? c.evaluator.name = some s' ∧
      c.evaluator.Transition c.setting c.constants before ((c.run before).1 = .ok true) s s'

variable {c : ControlCheck α} {states : WellStates α}

theorem run_of_missing (missing : states.get? c.evaluator.name = none) :
    c.run states = (.error (.unlisted c.evaluator.name), states) := by
  have unlisted : states.state c.evaluator.name = .error (.unlisted c.evaluator.name) := by
    rw [WellStates.state, missing]
  rw [run, unlisted]
  rfl

theorem run_of_listed {s : WellState α} (listed : states.get? c.evaluator.name = some s) :
    c.run states =
      match c.evaluator.controlSwitch c.setting c.constants states s with
      | .error f => (.error f, states)
      | .ok none => (.ok false, states)
      | .ok (some s') => (.ok true, states.adjust c.evaluator.name fun _ => s') := by
  rw [run, WellStates.state_eq_ok.2 listed]
  rfl

theorem accounted (c : ControlCheck α) (states : WellStates α) : c.Accounted states := by
  cases listed : states.get? c.evaluator.name with
  | none =>
    have same := run_of_missing listed
    constructor
    · intro _
      rw [same]
    · rw [same]
    · intro other _
      rw [same]
    · intro s found
      rw [listed] at found
      cases found
  | some s =>
    have ran := run_of_listed listed
    have unchanged : ∀ answer : Outcome α Bool, answer ≠ .ok true →
        c.run states = (answer, states) → c.Accounted states := by
      intro answer negative same
      constructor
      · intro _
        rw [same]
      · rw [same]
      · intro other _
        rw [same]
      · intro s found
        refine ⟨s, by rw [same]; exact found, .of_not_switched ?_⟩
        rw [same]
        exact negative
    cases checked : c.evaluator.controlSwitch c.setting c.constants states s with
    | error f =>
      rw [checked] at ran
      exact unchanged (.error f) (by simp) ran
    | ok switched =>
      rw [checked] at ran
      cases switched with
      | none => exact unchanged (.ok false) (by simp) ran
      | some s' =>
        constructor
        · intro negative
          rw [ran] at negative
          exact absurd rfl negative
        · rw [ran]
          exact Catalog.keys_mapValues _ _
        · intro other different
          simp [ran, Catalog.adjust, Catalog.get?_mapValues, different]
        · intro t found
          cases Option.some.inj (listed.symm.trans found)
          refine ⟨s', by simp [ran, Catalog.adjust, Catalog.get?_mapValues, listed], ?_⟩
          exact .of_switch (Evaluator.switch_of_controlSwitch checked) (by rw [ran])

/-- What a run of checks on one well leaves of its state. -/
theorem kept_runAll {well : Well α} {checks : List (ControlCheck α)}
    (same : ∀ c ∈ checks, c.evaluator.well = well) {s : WellState α}
    (listed : states.get? well.name = some s) :
    ∃ s', (runAll checks states).get? well.name = some s' ∧ s.Kept s' ∧
      well.otherMode s' = well.otherMode s := by
  induction checks generalizing states s with
  | nil => exact ⟨s, listed, .refl s, rfl⟩
  | cons c rest ih =>
    have first : c.evaluator.well = well := same c List.mem_cons_self
    have named : c.evaluator.name = well.name := congrArg Well.name first
    obtain ⟨middle, found, transition⟩ := (c.accounted states).own s (by rw [named]; exact listed)
    rw [named] at found
    obtain ⟨s', found', kept, otherMode⟩ :=
      ih (fun d later => same d (List.mem_cons_of_mem c later)) found
    have otherMode' := transition.otherMode
    rw [first] at otherMode'
    exact ⟨s', found', transition.kept.trans kept, otherMode.trans otherMode'⟩

theorem others_runAll {well : Well α} {checks : List (ControlCheck α)}
    (same : ∀ c ∈ checks, c.evaluator.well = well) (states : WellStates α) {other : String}
    (different : other ≠ well.name) : (runAll checks states).get? other = states.get? other := by
  induction checks generalizing states with
  | nil => rfl
  | cons c rest ih =>
    have named : c.evaluator.name = well.name := congrArg Well.name (same c List.mem_cons_self)
    have first := (c.accounted states).others other (by rw [named]; exact different)
    have later := ih (fun d later => same d (List.mem_cons_of_mem c later)) (c.run states).2
    exact later.trans first

/-- Every check of a run of checks on one well accounts for all that it changes.  The run as a whole
changes no other well, and of its own well at most the mode of its own kind and the surface
rates. -/
theorem runAll_accounted {well : Well α} {checks : List (ControlCheck α)}
    (same : ∀ c ∈ checks, c.evaluator.well = well) (states : WellStates α) :
    (∀ earlier c later, checks = earlier ++ c :: later → c.Accounted (runAll earlier states)) ∧
    (∀ other, other ≠ well.name → (runAll checks states).get? other = states.get? other) ∧
    ∀ s, states.get? well.name = some s →
      ∃ s', (runAll checks states).get? well.name = some s' ∧ s.Kept s' ∧
        well.otherMode s' = well.otherMode s := by
  refine ⟨?_, ?_, ?_⟩
  · intro earlier c later _
    exact c.accounted (runAll earlier states)
  · intro other different
    exact others_runAll same states different
  · intro s listed
    exact kept_runAll same listed

def limitedWell : Well ℚ :=
  .producer { Producer.plain "P" "G" with
    controls := { ProductionControls.free with modes := [.orat], oilRate := ⟨7, by decide⟩ } }

def limitedCheck (helper : GroupHelper ℚ) : ControlCheck ℚ where
  evaluator := { Evaluator.plain limitedWell with helper }
  setting := .ofGroup ⟨"G", none, none, .empty⟩ []
  constants := .standard

/-- The first check finds the oil limit exceeded, the second fails, and the third halves the rates,
as its helper wants it for this group. -/
theorem limited_accounted :
    let checks := [limitedCheck fun _ => .ok .kept, limitedCheck fun _ => .error .misaligned,
      limitedCheck fun q => .ok ⟨true, if q.group.name = "G" then 1 / 2 else 1 / 3⟩]
    let states := WellStates.ofStates [.flowing "P" (-1, -9, 0) [], .flowing "Q" (0, -1, 0) []]
    ((runAll checks states).get? "P").map (fun s => (s.surface, s.productionControl)) =
      some ([-1 / 2, -9 / 2, 0], .grup) ∧
    (∀ earlier c later, checks = earlier ++ c :: later → c.Accounted (runAll earlier states)) ∧
    (∀ other, other ≠ limitedWell.name → (runAll checks states).get? other = states.get? other) ∧
    ∀ s, states.get? limitedWell.name = some s →
      ∃ s', (runAll checks states).get? limitedWell.name = some s' ∧ s.Kept s' ∧
        limitedWell.otherMode s' = limitedWell.otherMode s := by
  intro checks states
  refine ⟨by decide +kernel, runAll_accounted ?_ states⟩
  intro c listed
  simp only [checks, List.mem_cons, List.not_mem_nil, or_false] at listed
  rcases listed with rfl | rfl | rfl <;> rfl

end ControlCheck
end Checks

section Callers
variable {setting : Setting α} {time : α}

/-- The states that a visit leaves are those that its check of the controls leaves. -/
theorem Evaluator.states_visit (e : Evaluator α) (setting : Setting α) (time : α) (w : World α) :
    (e.visit setting time w).2.states =
      ((⟨e, setting, w.constants⟩ : ControlCheck α).run w.states).2 := by
  cases listed : w.states.get? e.name with
  | none =>
    rw [ControlCheck.run_of_missing listed]
    have unlisted : w.states.state e.name = .error (.unlisted e.name) := by
      rw [WellStates.state, listed]
    simp only [visit, unlisted]
  | some s =>
    rw [ControlCheck.run_of_listed listed]
    cases checked : e.controlSwitch setting w.constants w.states s with
    | error f => simp only [visit, WellStates.state_eq_ok.2 listed, checked]
    | ok switched =>
      have left : (e.visit setting time w).2.states = (w.withState e.name switched).states := by
        simp only [visit, WellStates.state_eq_ok.2 listed, checked]
        rcases e.updateBooks _ _ _ _ with ⟨_ | _, b⟩ <;> rfl
      rw [left]
      cases switched <;> rfl

/-- A session that checks a well's controls answers, and keeps the states, as the check does. -/
theorem Session.checkControls_eq {s : Session α} {label : String} {e : Evaluator α}
    (found : s.evaluator label = .ok e) :
    (⟨e, s.setting, s.world.constants⟩ : ControlCheck α).run s.world.states =
      match s.checkControls label with
      | .error f => (.error f, s.world.states)
      | .ok (switched, after) => (.ok switched, after.world.states) := by
  simp only [Session.checkControls, Session.switch, found, Outcome.ok_bind, ControlCheck.run]
  cases s.world.states.state e.name with
  | error f => rfl
  | ok state =>
    simp only [Outcome.ok_bind]
    rcases e.controlSwitch s.setting s.world.constants s.world.states state with _ | _ | _ <;> rfl

end Callers
end WellControl
