import WellControl.Pass.Basic

/-! # Calls of a pass

A pass is called with a configuration, a setting and a time, over a list of evaluators, and writes
its messages either into the journal of the world or into one of its own that is replayed at the
end.  Both ways visit the same wells in the same way (`Pass.run_eq`); they differ in the journal
that the visits begin with and in what becomes of it. -/
set_option autoImplicit false

namespace WellControl

structure Pass (α : Type) [Scalar α] where
  config : Config α
  setting : Setting α
  time : α
  evaluators : List (Evaluator α)
  /-- Whether the messages go to a journal of the pass's own. -/
  ownJournal : Bool

namespace Pass
variable {α : Type} [Scalar α]

def run (p : Pass α) (w : World α) :
    Outcome α (StepReport × List (Int × String)) × World α :=
  if p.ownJournal then evaluateAndReplay p.config p.setting p.time p.evaluators w
  else
    let (outcome, after) := evaluateStep p.config p.setting p.time p.evaluators w
    (outcome.map fun report => (report, []), after)

def NoHook (p : Pass α) : Prop := ∀ e ∈ p.evaluators, e.physical = none

def start (p : Pass α) (w : World α) : World α :=
  { w with
    constants := p.config.constants
    journal := if p.ownJournal then [] else w.journal }

/-- The world that a pass leaves if its visits have led to `visited`. -/
def finish (p : Pass α) (w visited : World α) : World α :=
  { visited with
    constants := w.constants
    journal := if p.ownJournal then w.journal else visited.journal }

def replayed (p : Pass α) (visited : World α) : List (Int × String) :=
  if p.ownJournal then visited.journal.replay p.config.logLevel else []

theorem run_eq (p : Pass α) (w : World α) :
    p.run w =
      ((visitAll p.setting p.time p.evaluators (p.start w)).1.map fun report =>
        (report, p.replayed (visitAll p.setting p.time p.evaluators (p.start w)).2),
      p.finish w (visitAll p.setting p.time p.evaluators (p.start w)).2) := by
  cases own : p.ownJournal <;>
    simp [run, own, evaluateAndReplay, evaluateStep, World.within, start, finish, replayed]

/-! A pass ends well, or with a fault, exactly as its visits do. -/

theorem run_eq_ok {p : Pass α} {w after : World α} {report : StepReport}
    {lines : List (Int × String)} :
    p.run w = (.ok (report, lines), after) ↔
      ∃ last, visitAll p.setting p.time p.evaluators (p.start w) = (.ok report, last) ∧
        lines = p.replayed last ∧ after = p.finish w last := by
  rw [run_eq]
  rcases visitAll p.setting p.time p.evaluators (p.start w) with ⟨fault | found, last⟩
  · simp [Except.map]
  · simp only [Except.map, Prod.mk.injEq, Except.ok.injEq]
    constructor
    · rintro ⟨⟨rfl, rfl⟩, rfl⟩
      exact ⟨last, ⟨rfl, rfl⟩, rfl, rfl⟩
    · rintro ⟨_, ⟨rfl, rfl⟩, rfl, rfl⟩
      exact ⟨⟨rfl, rfl⟩, rfl⟩

theorem run_eq_error {p : Pass α} {w after : World α} {fault : Fault α} :
    p.run w = (.error fault, after) ↔
      ∃ last, visitAll p.setting p.time p.evaluators (p.start w) = (.error fault, last) ∧
        after = p.finish w last := by
  rw [run_eq]
  rcases visitAll p.setting p.time p.evaluators (p.start w) with ⟨found | report, last⟩
  · simp only [Except.map, Prod.mk.injEq, Except.error.injEq]
    constructor
    · rintro ⟨rfl, rfl⟩
      exact ⟨last, ⟨rfl, rfl⟩, rfl⟩
    · rintro ⟨_, ⟨rfl, rfl⟩, rfl⟩
      exact ⟨rfl, rfl⟩
  · simp [Except.map]

end Pass
end WellControl
