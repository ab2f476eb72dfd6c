import WellControl.Economic.Review
import WellControl.Proofs.Closure.Growth

/-! # What an update adds depends on the well's own closures

An update without a physical check looks at the closure record only for closures of the well that
it is about.  Two records that hold the same closures of the well (`ClosureRecord.SameOf`) are
therefore added the same entries, with the same outcome and the same messages
(`Evaluator.updateBooks_local`), and an update that is repeated adds nothing
(`Evaluator.updateBooks_again`). -/
set_option autoImplicit false

namespace WellControl

theorem Catalog.mem_keys_insertNew {κ ν : Type} [DecidableEq κ] (c : Catalog κ ν) (k : κ) (v : ν)
    (other : κ) : other ∈ (c.insertNew k v).2.keys ↔ other = k ∨ other ∈ c.keys := by
  unfold insertNew
  split
  · next listed =>
    refine ⟨.inr, ?_⟩
    rintro (rfl | old)
    · exact listed
    · exact old
  · simp [or_comm]

namespace ClosureRecord
variable {α : Type}

structure SameOf (name : String) (c d : ClosureRecord α) : Prop where
  wells : ∀ reason, d.hasWell name (some reason) = c.hasWell name (some reason)
  completions : ∀ id, d.hasCompletion name id = c.hasCompletion name id

/-- `after` is `before` with a well closed economically, or not, and completions of it closed, all
at one time. -/
structure Adds (name : String) (time : α) (closes : Bool) (ids : List Int)
    (before after : ClosureRecord α) : Prop where
  wells : after.wells.entries =
    before.wells.entries ++ if closes then [((name, ClosureReason.economic), time)] else []
  completions : after.completions.entries =
    before.completions.entries ++ ids.map fun id => ((name, id), time)

variable {name : String} {time : α} {c d : ClosureRecord α}

theorem SameOf.refl (name : String) (c : ClosureRecord α) : SameOf name c c :=
  ⟨fun _ => rfl, fun _ => rfl⟩

theorem SameOf.trans {middle : ClosureRecord α} (first : SameOf name c middle)
    (second : SameOf name middle d) : SameOf name c d :=
  ⟨fun reason => (second.wells reason).trans (first.wells reason),
    fun id => (second.completions id).trans (first.completions id)⟩

/-! ## The two ways to close -/

theorem hasWell_closeWell (c : ClosureRecord α) (name : String) (reason : ClosureReason)
    (time : α) : (c.closeWell name reason time).2.hasWell name (some reason) = true :=
  Catalog.has_eq_true_iff.2 ((Catalog.mem_keys_insertNew c.wells _ time _).2 (.inl rfl))

@[simp] theorem hasWell_closeCompletion (c : ClosureRecord α) (name : String) (id : Int) (time : α)
    (other : String) (reason : Option ClosureReason) :
    (c.closeCompletion name id time).2.hasWell other reason = c.hasWell other reason := rfl

theorem hasCompletion_closeCompletion (c : ClosureRecord α) (name : String) (id : Int) (time : α)
    (other : Int) :
    (c.closeCompletion name id time).2.hasCompletion name other =
      (decide (other = id) || c.hasCompletion name other) := by
  have listed := Catalog.mem_keys_insertNew c.completions (name, id) time (name, other)
  rw [Prod.mk.injEq, eq_self, true_and] at listed
  rw [Bool.eq_iff_iff, Bool.or_eq_true, decide_eq_true_eq]
  exact Catalog.has_eq_true_iff.trans (listed.trans (or_congr_right Catalog.has_eq_true_iff.symm))

theorem closeCompletion_of_hasCompletion {id : Int} (closed : c.hasCompletion name id = true)
    (time : α) : (c.closeCompletion name id time).2 = c := by
  have listed := Catalog.has_eq_true_iff.1 closed
  simp only [closeCompletion, Catalog.insertNew, dif_pos listed]

theorem adds_closeWell (name : String) (time : α) (c : ClosureRecord α) :
    Adds name time (!c.hasWell name (some .economic)) [] c
      (c.closeWell name .economic time).2 := by
  refine ⟨(Catalog.entries_insertNew c.wells (name, .economic) time).trans ?_,
    by simp [closeWell]⟩
  by_cases listed : (name, ClosureReason.economic) ∈ c.wells.keys <;>
    simp [hasWell, Catalog.has, listed]

theorem adds_closeCompletion (name : String) (id : Int) (time : α) (c : ClosureRecord α) :
    Adds name time false (if c.hasCompletion name id then [] else [id]) c
      (c.closeCompletion name id time).2 := by
  refine ⟨by simp [closeCompletion],
    (Catalog.entries_insertNew c.completions (name, id) time).trans ?_⟩
  by_cases listed : (name, id) ∈ c.completions.keys <;>
    simp [hasCompletion, Catalog.has, listed]

theorem Adds.nothing (name : String) (time : α) (c : ClosureRecord α) :
    Adds name time false [] c c :=
  ⟨by simp, by simp⟩

theorem Adds.growth {closes : Bool} {ids : List Int} (adds : Adds name time closes ids c d) :
    Growth name time c d := by
  refine ⟨⟨if closes then [.economic] else [], by simp, ?_⟩, ids, adds.completions⟩
  rw [adds.wells]
  cases closes <;> rfl

/-- Completions are closed first, then the well. -/
theorem Adds.trans {closes : Bool} {ids : List Int} {middle : ClosureRecord α}
    (first : Adds name time false ids c middle) (second : Adds name time closes [] middle d) :
    Adds name time closes ids c d :=
  ⟨by rw [second.wells, first.wells]; simp, by rw [second.completions, first.completions]; simp⟩

theorem SameOf.closeCompletion (same : SameOf name c d) (id : Int) (time time' : α) :
    SameOf name (c.closeCompletion name id time).2 (d.closeCompletion name id time').2 :=
  ⟨same.wells, fun other => by
    rw [hasCompletion_closeCompletion, hasCompletion_closeCompletion, same.completions]⟩

end ClosureRecord

open ClosureRecord

section Update
variable {α : Type} [Scalar α]

namespace Producer
variable {w : Producer α} {source : RatioSource α} {c d : ClosureRecord α}

theorem isPlugged_congr (same : SameOf w.name c d) : w.isPlugged d = w.isPlugged c := by
  simp only [isPlugged, same.completions]

/-- A review asks the record only whether the well was closed by an earlier one. -/
theorem review_congr (source : RatioSource α)
    (same : d.hasWell w.name (some .economic) = c.hasWell w.name (some .economic)) :
    w.review source d = w.review source c := by
  rw [review, review, exempts, exempts, same]

theorem carryOut_local (w : Producer α) (time : α) (verdict : Verdict) (c : ClosureRecord α) :
    ∃ closes ids messages, ∀ d, SameOf w.name c d →
      Adds w.name time closes ids d (w.carryOut time d verdict).1 ∧
      (w.carryOut time d verdict).2 = messages := by
  cases verdict with
  | keep => exact ⟨false, [], [], fun d _ => ⟨.nothing _ _ d, rfl⟩⟩
  | closeForRate =>
    refine ⟨!c.hasWell w.name (some .economic), [], _, fun d same => ⟨?_, rfl⟩⟩
    rw [← same.wells]
    exact adds_closeWell w.name time d
  | closeForRatio =>
    refine ⟨!c.hasWell w.name (some .economic), [], _, fun d same => ⟨?_, rfl⟩⟩
    rw [← same.wells]
    exact adds_closeWell w.name time d
  | closeCompletion id =>
    have first : ∀ d, SameOf w.name c d → Adds w.name time false
        (if c.hasCompletion w.name id then [] else [id]) d
        (d.closeCompletion w.name id time).2 := by
      intro d same
      rw [← same.completions]
      exact adds_closeCompletion w.name id time d
    cases plugged : w.isPlugged (c.closeCompletion w.name id time).2 with
    | false =>
      refine ⟨false, if c.hasCompletion w.name id then [] else [id], [w.completionMessage id],
        fun d same => ?_⟩
      have unplugged := (isPlugged_congr (same.closeCompletion id time time)).trans plugged
      simp only [carryOut, unplugged, Bool.false_eq_true, if_false]
      exact ⟨first d same, trivial⟩
    | true =>
      refine ⟨!c.hasWell w.name (some .economic), if c.hasCompletion w.name id then [] else [id],
        [w.completionMessage id, .info (w.name ++ " will be " ++ w.closedVerb ++
          " due to last completion closed")], fun d same => ?_⟩
      have closed := (isPlugged_congr (same.closeCompletion id time time)).trans plugged
      simp only [carryOut, closed, if_true]
      refine ⟨(first d same).trans ?_, trivial⟩
      rw [← same.wells]
      exact adds_closeWell w.name time (d.closeCompletion w.name id time).2

theorem settle_local (w : Producer α) (source : RatioSource α) (time : α) (writeMessages : Bool)
    (c : ClosureRecord α) :
    ∃ outcome closes ids notices, ∀ b : Books α, SameOf w.name c b.closures →
      (w.settle source time writeMessages b).1 = outcome ∧
      Adds w.name time closes ids b.closures (w.settle source time writeMessages b).2.closures ∧
      (w.settle source time writeMessages b).2.journal = b.journal ++ notices := by
  cases verdict : (w.review source c).verdict with
  | error fault =>
    refine ⟨.error fault, false, [], (w.review source c).notices, fun b same => ?_⟩
    simp only [settle, review_congr source (same.wells _), verdict]
    exact ⟨trivial, .nothing _ _ _, trivial⟩
  | ok v =>
    obtain ⟨closes, ids, messages, carried⟩ := w.carryOut_local time v c
    refine ⟨.ok (), closes, ids,
      (w.review source c).notices ++ if writeMessages then messages else [], fun b same => ?_⟩
    obtain ⟨adds, said⟩ := carried b.closures same
    simp only [settle, review_congr source (same.wells _), verdict, said]
    exact ⟨trivial, adds, List.append_assoc _ _ _⟩

/-- Once a verdict is carried out, another review of the well in the same state comes to one that
changes nothing: what it could close is closed by then, or the well is exempt. -/
theorem review_again {v : Verdict} (verdict : (w.review source c).verdict = .ok v) {time : α}
    (same : SameOf w.name (w.carryOut time c v).1 d) (time' : α) :
    ∃ v', (w.review source d).verdict = .ok v' ∧ (w.carryOut time' d v').1 = d := by
  have exempt_of_closed (closed : d.hasWell w.name (some .economic) = true) :
      ∃ v', (w.review source d).verdict = .ok v' ∧ (w.carryOut time' d v').1 = d :=
    ⟨.keep, by simp [review, exempts, closed], rfl⟩
  cases v with
  | keep => exact ⟨.keep, by rw [review_congr source (same.wells _)]; exact verdict, rfl⟩
  | closeForRate => exact exempt_of_closed ((same.wells _).trans (hasWell_closeWell _ _ _ _))
  | closeForRatio => exact exempt_of_closed ((same.wells _).trans (hasWell_closeWell _ _ _ _))
  | closeCompletion id =>
    cases plugged : w.isPlugged (c.closeCompletion w.name id time).2 with
    | true =>
      simp only [carryOut, plugged, if_true] at same
      exact exempt_of_closed ((same.wells _).trans (hasWell_closeWell _ _ _ _))
    | false =>
      simp only [carryOut, plugged, Bool.false_eq_true, if_false] at same
      have closed : d.hasCompletion w.name id = true := by
        rw [same.completions, hasCompletion_closeCompletion, decide_eq_true rfl, Bool.true_or]
      have unplugged := (isPlugged_congr same).trans plugged
      have notClosed := (same.wells .economic).trans (hasWell_closeCompletion _ _ _ _ _ _)
      refine ⟨.closeCompletion id, (congrArg _ (review_congr source notClosed)).trans verdict, ?_⟩
      simp only [carryOut, closeCompletion_of_hasCompletion closed, unplugged, Bool.false_eq_true,
        if_false]

/-- Once a review has ended well, reviewing the well again in the same state adds nothing. -/
theorem settle_again {time : α} {writeMessages : Bool} {b : Books α}
    (settled : (w.settle source time writeMessages b).1 = .ok ()) (time' : α) {b' : Books α}
    (same : SameOf w.name (w.settle source time writeMessages b).2.closures b'.closures) :
    (w.settle source time' writeMessages b').1 = .ok () ∧
      (w.settle source time' writeMessages b').2.closures = b'.closures := by
  cases verdict : (w.review source b.closures).verdict with
  | error fault => simp [settle, verdict] at settled
  | ok v =>
    simp only [settle, verdict] at same
    obtain ⟨v', verdict', kept⟩ := review_again verdict same time'
    simp only [settle, verdict', kept, and_self]

theorem closures_settle_of_error {time : α} {writeMessages : Bool} {b : Books α} {fault : Fault α}
    (failed : (w.settle source time writeMessages b).1 = .error fault) :
    (w.settle source time writeMessages b).2.closures = b.closures := by
  cases verdict : (w.review source b.closures).verdict with
  | error _ => simp only [settle, verdict]
  | ok _ => simp [settle, verdict] at failed

theorem closures_settle_of_exempt {b : Books α}
    (exempt : b.closures.exempts w.name source.state = true) (time : α) (writeMessages : Bool) :
    (w.settle source time writeMessages b).2.closures = b.closures := by
  simp [settle, review, exempt, carryOut]

end Producer

namespace Evaluator
variable {e : Evaluator α} {constants : Constants α} {s : WellState α} {time : α} {b : Books α}

/-- An update without a physical check settles the well if it is a producer that is predicted, and
does nothing else. -/
theorem updateBooks_eq (noHook : e.physical = none) (constants : Constants α) (s : WellState α) :
    (∀ time b, e.updateBooks constants s time b = (.ok (), b)) ∨
      ∃ w, e.well = .producer w ∧ w.name = e.name ∧ w.controls.prediction = true ∧
        ∀ time b, e.updateBooks constants s time b =
          w.settle (e.ratioSource constants s) time e.writeMessages b := by
  cases well : e.well with
  | injector w => exact .inl fun time b => by simp only [updateBooks, well]
  | producer w =>
    cases predicted : w.controls.prediction with
    | false => exact .inl fun time b => by simp [updateBooks, well, predicted]
    | true =>
      refine .inr ⟨w, rfl, ?_, predicted, fun time b => ?_⟩
      · simp only [name, Well.name, Well.header, well]
      · simp only [updateBooks, well, predicted, noHook, if_true]

theorem updateBooks_local (noHook : e.physical = none) (constants : Constants α) (s : WellState α)
    (time : α) (c : ClosureRecord α) :
    ∃ outcome closes ids notices, ∀ b : Books α, SameOf e.name c b.closures →
      (e.updateBooks constants s time b).1 = outcome ∧
      Adds e.name time closes ids b.closures (e.updateBooks constants s time b).2.closures ∧
      (e.updateBooks constants s time b).2.journal = b.journal ++ notices := by
  rcases updateBooks_eq noHook constants s with nothing | ⟨w, _, named, _, settles⟩
  · refine ⟨.ok (), false, [], [], fun b _ => ?_⟩
    rw [nothing]
    exact ⟨rfl, .nothing _ _ _, (List.append_nil _).symm⟩
  · simp only [settles, ← named]
    exact w.settle_local _ _ _ c

/-- Whatever comes of an update without a physical check, the books have only grown. -/
theorem growth_updateBooks (noHook : e.physical = none) (constants : Constants α)
    (s : WellState α) (time : α) (b : Books α) :
    b.closures.Growth e.name time (e.updateBooks constants s time b).2.closures := by
  obtain ⟨_, _, _, _, alike⟩ := updateBooks_local noHook constants s time b.closures
  exact (alike b (.refl _ _)).2.1.growth

theorem updateBooks_again (noHook : e.physical = none)
    (updated : (e.updateBooks constants s time b).1 = .ok ()) (time' : α) {b' : Books α}
    (same : SameOf e.name (e.updateBooks constants s time b).2.closures b'.closures) :
    (e.updateBooks constants s time' b').1 = .ok () ∧
      (e.updateBooks constants s time' b').2.closures = b'.closures := by
  rcases updateBooks_eq noHook constants s with nothing | ⟨w, _, named, _, settles⟩
  · rw [nothing]
    exact ⟨rfl, rfl⟩
  · rw [settles] at updated same ⊢
    rw [← named] at same
    exact Producer.settle_again updated time' same

theorem closures_updateBooks_of_error (noHook : e.physical = none) {fault : Fault α}
    (failed : (e.updateBooks constants s time b).1 = .error fault) :
    (e.updateBooks constants s time b).2.closures = b.closures := by
  rcases updateBooks_eq noHook constants s with nothing | ⟨w, _, _, _, settles⟩
  · rw [nothing]
  · rw [settles] at failed ⊢
    exact Producer.closures_settle_of_error failed

/-- An update adds to the record only for a producer that is predicted and not exempt. -/
theorem updateBooks_adds (noHook : e.physical = none) (constants : Constants α) (s : WellState α)
    (time : α) (b : Books α) :
    (e.updateBooks constants s time b).2.closures = b.closures ∨
      ∃ w, e.well = .producer w ∧ w.controls.prediction = true ∧
        b.closures.exempts e.name s = false := by
  rcases updateBooks_eq noHook constants s with nothing | ⟨w, well, named, predicted, settles⟩
  · exact .inl (by rw [nothing])
  · cases exempt : b.closures.exempts e.name s with
    | false => exact .inr ⟨w, well, predicted, rfl⟩
    | true =>
      rw [← named] at exempt
      rw [settles]
      exact .inl (w.closures_settle_of_exempt exempt _ _)

end Evaluator
end Update
end WellControl
