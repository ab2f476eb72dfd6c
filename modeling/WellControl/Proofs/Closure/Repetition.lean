import WellControl.Proofs.Closure.Additions

/-! # Updates that are repeated

After one update of a well its record is at rest (`Producer.AtRest`): as long as the well stays in
its state, no verdict of a review has anything to close that is not closed by then.  So updates that
follow, at whatever times, end as the first one did and leave the record that it left. -/
set_option autoImplicit false

namespace WellControl
variable {α : Type} [Scalar α]

namespace Producer
variable {w : Producer α} {source : RatioSource α} {closures : ClosureRecord α} {b : Books α}

theorem outcome_settle (w : Producer α) (source : RatioSource α) (time : α) (writeMessages : Bool)
    (b : Books α) :
    (w.settle source time writeMessages b).1 =
      (fun _ => ()) <$> (w.review source b.closures).verdict := by
  cases verdict : (w.review source b.closures).verdict <;> simp only [settle, verdict] <;> rfl

/-- What a review comes to changes nothing in the record, whenever it is carried out. -/
def AtRest (w : Producer α) (source : RatioSource α) (closures : ClosureRecord α) : Prop :=
  ∀ verdict, (w.review source closures).verdict = .ok verdict →
    ∀ time, (w.carryOut time closures verdict).1 = closures

theorem closures_settle_of_atRest (rest : w.AtRest source b.closures) (time : α)
    (writeMessages : Bool) : (w.settle source time writeMessages b).2.closures = b.closures := by
  cases verdict : (w.review source b.closures).verdict with
  | error fault => simp only [settle, verdict]
  | ok v => simp only [settle, verdict, rest v verdict]

theorem closures_settle_of_verdict {v : Verdict}
    (verdict : (w.review source b.closures).verdict = .ok v) (time : α) (writeMessages : Bool) :
    (w.settle source time writeMessages b).2.closures = (w.carryOut time b.closures v).1 := by
  simp only [settle, verdict]

theorem closures_settle_of_fault {fault : Fault α}
    (verdict : (w.review source b.closures).verdict = .error fault) (time : α)
    (writeMessages : Bool) : (w.settle source time writeMessages b).2.closures = b.closures := by
  simp only [settle, verdict]

theorem atRest_settle (w : Producer α) (source : RatioSource α) (time : α) (writeMessages : Bool)
    (b : Books α) : w.AtRest source (w.settle source time writeMessages b).2.closures := by
  intro v reviewed time'
  cases first : (w.review source b.closures).verdict with
  | error fault =>
    rw [closures_settle_of_fault first, first] at reviewed
    cases reviewed
  | ok before =>
    rw [closures_settle_of_verdict first] at reviewed ⊢
    obtain ⟨v', reviewed', kept⟩ := review_again first (.refl _ _) time'
    cases reviewed.symm.trans reviewed'
    exact kept

theorem outcome_settle_again (w : Producer α) (source : RatioSource α) (time time' : α)
    (writeMessages writeMessages' : Bool) (b : Books α) :
    (w.settle source time' writeMessages' (w.settle source time writeMessages b).2).1 =
      (w.settle source time writeMessages b).1 := by
  rw [outcome_settle, outcome_settle]
  cases first : (w.review source b.closures).verdict with
  | error fault =>
    -- The record is the same as before, and a review looks at nothing else that has changed.
    rw [closures_settle_of_fault first, first]
  | ok v =>
    obtain ⟨v', reviewed, -⟩ := review_again first (.refl _ _) time'
    rw [closures_settle_of_verdict first, reviewed]
    rfl

def settleRepeatedly (w : Producer α) (source : RatioSource α) (b : Books α)
    (updates : List (α × Bool)) : Books α :=
  updates.foldl (fun b update => (w.settle source update.1 update.2 b).2) b

/-- However often it is updated, a record at rest stays as it is. -/
theorem closures_settleRepeatedly (rest : w.AtRest source b.closures)
    (updates : List (α × Bool)) : (w.settleRepeatedly source b updates).closures = b.closures := by
  induction updates generalizing b with
  | nil => rfl
  | cons update later ih =>
    have kept := closures_settle_of_atRest rest update.1 update.2
    exact (ih (kept.symm ▸ rest)).trans kept

/-- An update that is repeated in the same state, at any time and on any record, ends as the first
one did and leaves the record that the first one left; if that failed, the record is the original
one.  More updates leave it, too. -/
theorem settle_repeated (w : Producer α) (source : RatioSource α) (time time' : α)
    (writeMessages writeMessages' : Bool) (b : Books α) :
    let first := w.settle source time writeMessages b
    let second := w.settle source time' writeMessages' first.2
    second.2.closures = first.2.closures ∧ second.1 = first.1 ∧
      (∀ fault, first.1 = .error fault → second.2.closures = b.closures) ∧
      ∀ updates, (w.settleRepeatedly source first.2 updates).closures = first.2.closures := by
  intro first second
  have rest : w.AtRest source first.2.closures := w.atRest_settle source time writeMessages b
  have kept : second.2.closures = first.2.closures :=
    closures_settle_of_atRest rest time' writeMessages'
  refine ⟨kept, w.outcome_settle_again source time time' writeMessages writeMessages' b, ?_,
    closures_settleRepeatedly rest⟩
  intro fault failed
  exact kept.trans (closures_settle_of_error failed)

end Producer
end WellControl
