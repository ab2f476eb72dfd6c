import WellControl.Proofs.Economic.Reordering
import WellControl.Proofs.Pass.Call
import WellControl.Proofs.Pass.Visit
import WellControl.Proofs.Plain

/-! # Passes with phases in another order

The order in which a phase table lists the phases decides where rates stand in the arrays, and
nothing else.  Evaluators for two orders that are given related states answer the same, leave
related states and write down the same (`Evaluator.answers_reordered`), and so do whole passes
(`Pass.run_reordered`). -/
set_option autoImplicit false

namespace WellControl
open PhaseTable

variable {t t' : PhaseTable}

section Passes

structure World.Reordered (t t' : PhaseTable) (w w' : World ℚ) : Prop where
  states : w.states.Reordered t t' w'.states
  closures : w'.closures = w.closures
  journal : w'.journal = w.journal
  reductions : w'.reductions = w.reductions
  constants : w'.constants = w.constants

variable {w w' : World ℚ} {setting setting' : Setting ℚ}

namespace World.Reordered

theorem books (same : w.Reordered t t' w') : w'.books = w.books := by
  rw [World.books, World.books, same.closures, same.journal]

theorem withState (same : w.Reordered t t' w') (name : String) {s s' : Option (WellState ℚ)}
    (related : Option.Rel (WellState.Reordered t t') s s') :
    World.Reordered t t' (w.withState name s) (w'.withState name s') := by
  cases related with
  | none => exact same
  | some related => exact { same with states := same.states.adjust related name }

theorem withBooks (same : w.Reordered t t' w') (label : String) (b : Books ℚ) :
    World.Reordered t t' (w.withBooks label b) (w'.withBooks label b) := by
  refine ⟨same.states, rfl, rfl, ?_, same.constants⟩
  simp only [World.withBooks, World.reductionsOf, same.reductions]

end World.Reordered

theorem Evaluator.visit_reordered {e e' : Evaluator ℚ} (perm : t.active.Perm t'.active)
    (same : e.Reordered t t' e') (settings : setting.Reordered t t' setting') (time : ℚ)
    (worlds : w.Reordered t t' w') :
    (e'.visit setting' time w').1 = (e.visit setting time w).1 ∧
      World.Reordered t t' (e.visit setting time w).2 (e'.visit setting' time w').2 := by
  have found := worlds.states.state e.name
  unfold visit
  rw [same.name_eq, worlds.constants, same.label]
  generalize w.states.state e.name = x, w'.states.state e.name = y at found
  cases found with
  | error f => exact ⟨rfl, worlds⟩
  | @ok s s' related =>
    have checked := controlSwitch_alike perm same settings worlds.states w.constants related
    dsimp only
    generalize e.controlSwitch setting w.constants w.states s = x,
      e'.controlSwitch setting' w.constants w'.states s' = y at checked
    cases checked with
    | error f => exact ⟨rfl, worlds⟩
    | @ok switched switched' left =>
      have settled : (switched.getD s).Reordered t t' (switched'.getD s') := by
        cases left with
        | none => exact related
        | some both => exact both
      have flag : switched'.isSome = switched.isSome := by
        cases left <;> rfl
      have stated := worlds.withState e.name left
      simp only [World.constants_withState, World.books_withState, World.closures_withState,
        updateBooks_reordered perm same w.constants settled, worlds.constants, worlds.books,
        worlds.closures, flag]
      rcases e.updateBooks w.constants (switched.getD s) time w.books with ⟨_ | _, b⟩
      · exact ⟨rfl, stated.withBooks e.label b⟩
      · exact ⟨rfl, stated.withBooks e.label b⟩

/-- A pass reports and replays the same whatever the order of phases, and leaves related worlds. -/
theorem Pass.run_reordered (perm : t.active.Perm t'.active) {p p' : Pass ℚ}
    (config : p'.config = p.config) (time : p'.time = p.time)
    (ownJournal : p'.ownJournal = p.ownJournal)
    (settings : p.setting.Reordered t t' p'.setting)
    (same : List.Forall₂ (Evaluator.Reordered t t') p.evaluators p'.evaluators)
    (worlds : w.Reordered t t' w') :
    (p'.run w').1 = (p.run w).1 ∧ World.Reordered t t' (p.run w).2 (p'.run w').2 := by
  have begins : World.Reordered t t' (p.start w) (p'.start w') := by
    refine ⟨worlds.states, worlds.closures, ?_, worlds.reductions, ?_⟩
    · simp only [start, ownJournal, worlds.journal]
    · simp only [start, config]
  obtain ⟨outcome, last⟩ := visitAll_alike (fun e e' v v' alike worlds =>
    Evaluator.visit_reordered perm alike settings p.time worlds) same begins
  rw [run_eq, run_eq, time, outcome]
  refine ⟨?_, last.states, last.closures, ?_, last.reductions, worlds.constants⟩
  · simp only [replayed, ownJournal, config, last.journal]
  · simp only [finish, ownJournal, worlds.journal, last.journal]

end Passes

/-- Whatever the order of phases, the conversion of surface rates, the check of the controls and the
update of the books answer the same, and leave states that are related. -/
theorem Evaluator.answers_reordered (perm : t.active.Perm t'.active) {e e' : Evaluator ℚ}
    (same : e.Reordered t t' e') {setting setting' : Setting ℚ}
    (settings : setting.Reordered t t' setting') (constants : Constants ℚ)
    {states states' : WellStates ℚ} (listed : states.Reordered t t' states') {s s' : WellState ℚ}
    (related : s.Reordered t t' s') :
    Outcome.Alike (WellState.Reordered t t') (e.withReservoirRates constants s)
      (e'.withReservoirRates constants s') ∧
    (let left := (⟨e, setting, constants⟩ : ControlCheck ℚ).run states
     let left' := (⟨e', setting', constants⟩ : ControlCheck ℚ).run states'
     left'.1 = left.1 ∧ left.2.Reordered t t' left'.2) ∧
    ∀ time b, e'.updateBooks constants s' time b = e.updateBooks constants s time b := by
  refine ⟨withReservoirRates_alike perm same constants related, ?_, fun time b => ?_⟩
  · exact ControlCheck.run_reordered perm same settings rfl listed
  · rw [updateBooks_reordered perm same constants related]

section Example

def PhaseTable.gasFirst : PhaseTable := ⟨[.gas, .water, .oil], by decide, by decide⟩

theorem PhaseTable.gasFirst_perm : blackOil.active.Perm gasFirst.active := by decide

def FormationVolume.exchanging (t : PhaseTable) : FormationVolume ℚ where
  table := t
  regions := .empty
  fallback := some ⟨⟨1, by decide⟩, ⟨3 / 2, by decide +kernel⟩, ⟨1 / 2, by decide +kernel⟩,
    ⟨1 / 4, by decide +kernel⟩, ⟨1 / 5, by decide +kernel⟩, by decide +kernel⟩

def Producer.wet : Producer ℚ :=
  { Producer.plain "P" "G" with
    connections := oneConnection
    distinct := oneConnection_distinct
    limits := { EconomicLimits.halfWater with workover := .con } }

def Evaluator.wet (t : PhaseTable) : Evaluator ℚ :=
  { Evaluator.plain (.producer .wet) with
    table := t
    converter := (FormationVolume.exchanging t).converter }

/-- The group of the producer may leave a reservoir volume of 5, from which rates are taken off. -/
def Setting.wet (t : PhaseTable) : Setting ℚ :=
  { Setting.ofGroup ⟨"G", none, some ⟨.resv, none, none, none, none, some ⟨5, by decide⟩⟩, .empty⟩
      [.wet] with
    reductions := ⟨Catalog.empty.put "G" (t.active.map fun p => if p = .oil then -1 else 0),
      .empty⟩ }

def Phase.wetRate : Phase → ℚ
  | .water => -8
  | .oil => -2
  | .gas => -3

def WellState.wet (t : PhaseTable) : WellState ℚ :=
  { WellState.flowing "P" (0, 0, 0) [] with
    surfaceRates := .ofList (t.active.map Phase.wetRate)
    reservoirRates := .ofList (t.active.map Phase.wetRate)
    potentials := some (.ofList (t.active.map Phase.wetRate))
    perforationRates :=
      ⟨[1, t.size], t.active.map Phase.wetRate, by simp [Grid.volume, PhaseTable.size]⟩ }

theorem WellState.wet_reordered (perm : t.active.Perm t'.active) :
    (wet t).Reordered t t' (wet t') := by
  have same := Grid.SameRates.ofList (sameRates_map perm Phase.wetRate)
  have whole : ∀ u i part, (wet u).perforationRates.part? i = some part →
      part.entries = (wet u).surface := by
    intro u i part found
    simp only [wet, Grid.part?] at found
    split at found
    · rename_i first
      cases found
      simp [Nat.lt_one_iff.1 first, Grid.volume, PhaseTable.size, wet, WellState.surface]
    · cases found
  refine ⟨rfl, same, same, rfl, rfl, .some same, ⟨⟨1, rfl, rfl⟩, ?_⟩, rfl, rfl, rfl⟩
  intro i part part' found found'
  rw [whole t i part found, whole t' i part' found']
  exact same.line

theorem Setting.wet_reordered (perm : t.active.Perm t'.active) :
    (Setting.wet t).Reordered t t' (Setting.wet t') := by
  refine ⟨rfl, fun group => ?_, fun group => .none⟩
  simp only [wet, Catalog.get?_put]
  split
  · exact .some (sameRates_map perm _)
  · exact .none

theorem Evaluator.wet_reordered (t t' : PhaseTable) : (wet t).Reordered t t' (wet t') where
  label := rfl
  well := rfl
  table := rfl
  table' := rfl
  converter := ⟨.exchanging t, .exchanging t', rfl, rfl, ⟨rfl, rfl⟩, rfl, rfl⟩
  helper := rfl
  helper' := rfl
  owned := rfl
  serial _ _ := rfl
  serial' _ _ := rfl
  physical := .none
  writeMessages := rfl
  step := rfl
  guideRates := rfl

/-- With water first and with gas first, the producer is cut to the share of its group. -/
theorem Evaluator.wet_answers :
    let states := fun t => Catalog.empty.put "P" (WellState.wet t)
    let left := fun t => (⟨wet t, .wet t, .standard⟩ : ControlCheck ℚ).run (states t)
    (left .blackOil).1 = .ok true ∧
    Outcome.Alike (WellState.Reordered .blackOil .gasFirst)
      ((wet .blackOil).withReservoirRates .standard (WellState.wet .blackOil))
      ((wet .gasFirst).withReservoirRates .standard (WellState.wet .gasFirst)) ∧
    ((left .gasFirst).1 = (left .blackOil).1 ∧
      (left .blackOil).2.Reordered .blackOil .gasFirst (left .gasFirst).2) ∧
    ∀ time b, (wet .gasFirst).updateBooks .standard (.wet .gasFirst) time b =
      (wet .blackOil).updateBooks .standard (.wet .blackOil) time b := by
  intro states left
  have perm := PhaseTable.gasFirst_perm
  have listed : WellStates.Reordered .blackOil .gasFirst (states .blackOil) (states .gasFirst) := by
    intro name
    simp only [states, Catalog.get?_put]
    split
    · exact .some (WellState.wet_reordered perm)
    · exact .none
  refine ⟨by decide +kernel, ?_⟩
  exact answers_reordered perm (wet_reordered _ _) (Setting.wet_reordered perm) .standard listed
    (WellState.wet_reordered perm)

end Example
end WellControl
