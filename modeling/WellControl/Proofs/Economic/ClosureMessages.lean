import WellControl.Proofs.Economic.Workovers
import WellControl.Proofs.Pass.Messages

/-! # What the messages of an update tell

An update that reports closures tells those that it records, in their order, but for one case: a
worst completion that is closed by then is named again and not recorded again.  The messages and the
record of an update are therefore described apart (`EconomicUpdate.Makes`), by the completions
named and those recorded. -/
set_option autoImplicit false

namespace WellControl

namespace Journal

def information (j : Journal) : Journal := j.filter fun r => decide (r.severity = .info)

@[simp] theorem information_append (j k : Journal) :
    information (j ++ k) = information j ++ information k :=
  List.filter_append j k

theorem information_eq_nil {j : Journal} (warned : j.withoutInfo = j) : j.information = [] := by
  rw [information, List.filter_eq_nil_iff]
  intro r listed
  simpa using List.filter_eq_self.1 warned r listed

end Journal

namespace ClosureRecord
variable {α : Type} {name : String} {time : α} {closes closes' : Bool} {ids ids' : List Int}
  {c d : ClosureRecord α}

theorem Adds.unique (adds : Adds name time closes ids c d)
    (adds' : Adds name time closes' ids' c d) : ids' = ids := by
  have same := List.append_cancel_left (adds'.completions.symm.trans adds.completions)
  refine List.map_injective_iff.2 ?_ same
  intro id id' pair
  exact congrArg (fun e : (String × Int) × α => e.1.2) pair

theorem Adds.hasCompletion_iff (adds : Adds name time closes ids c d) {other : String} {id : Int} :
    d.hasCompletion other id = true ↔
      c.hasCompletion other id = true ∨ name = other ∧ id ∈ ids := by
  refine Catalog.has_eq_true_iff.trans ?_
  rw [Catalog.keys, adds.completions, List.map_append, List.mem_append, List.map_map]
  refine or_congr Catalog.has_eq_true_iff.symm ?_
  simp [and_comm]

end ClosureRecord

open ClosureRecord

variable {α : Type} [Scalar α]

inductive ClosingCause where
  | rate
  | ratio
  | lastCompletion

namespace Producer

def closingMessage (w : Producer α) : ClosingCause → Record
  | .rate =>
    .info ("well " ++ w.name ++ " will be " ++ w.closedVerb ++ " due to rate economic limit")
  | .ratio => .info (w.name ++ " will be " ++ w.closedVerb ++ " due to ratio economic limit")
  | .lastCompletion =>
    .info (w.name ++ " will be " ++ w.closedVerb ++ " due to last completion closed")

def closureMessages (w : Producer α) (ids : List Int) (closing : Option ClosingCause) : Journal :=
  ids.map w.completionMessage ++ (closing.map w.closingMessage).toList

theorem information_closureMessages (w : Producer α) (ids : List Int)
    (closing : Option ClosingCause) :
    (w.closureMessages ids closing).information = w.closureMessages ids closing := by
  refine List.filter_eq_self.2 fun r listed => ?_
  rcases List.mem_append.1 listed with completion | well
  · obtain ⟨id, -, rfl⟩ := List.mem_map.1 completion
    rfl
  · obtain ⟨cause, -, rfl⟩ := Option.map_eq_some_iff.1 (Option.mem_toList.1 well)
    cases cause <;> rfl

section Verdicts
variable {w : Producer α} {source : RatioSource α} {c : ClosureRecord α} {v : Verdict}

/-- A well that something is done about is not left alone. -/
theorem considered_of_verdict (reviewed : (w.review source c).verdict = .ok v) (acts : v ≠ .keep) :
    c.exempts w.name source.state = false := by
  by_contra exempt
  rw [review, Bool.eq_true_of_not_eq_false exempt, Bool.true_or, if_pos rfl] at reviewed
  exact acts (Except.ok.inj reviewed).symm

theorem hasWell_of_verdict (reviewed : (w.review source c).verdict = .ok v) (acts : v ≠ .keep) :
    c.hasWell w.name (some .economic) = false :=
  (Bool.or_eq_false_iff.1 (considered_of_verdict reviewed acts)).2

end Verdicts

end Producer

/-- An economic update of a producer in which closures are reported. -/
structure EconomicUpdate (α : Type) [Scalar α] where
  well : Producer α
  source : RatioSource α
  time : α

namespace EconomicUpdate
variable {u : EconomicUpdate α} {b : Books α}

def verdict (u : EconomicUpdate α) (b : Books α) : Outcome α Verdict :=
  (u.well.review u.source b.closures).verdict

def perform (b : Books α) (u : EconomicUpdate α) : Books α :=
  (u.well.settle u.source u.time true b).2

def performAll (b : Books α) (updates : List (EconomicUpdate α)) : Books α :=
  updates.foldl perform b

/-- What an update makes of the books: completions are recorded, and the well for a cause; messages
name completions and tell the cause. -/
structure Makes (u : EconomicUpdate α) (b : Books α) (named recorded : List Int)
    (closing : Option ClosingCause) : Prop where
  closures : Adds u.well.name u.time closing.isSome recorded b.closures (perform b u).closures
  messages : ∃ added, (perform b u).journal = b.journal ++ added ∧
    added.information = u.well.closureMessages named closing

/-- The messages tell just what is newly recorded, each closure once and in order. -/
def Faithful (u : EconomicUpdate α) (b : Books α) : Prop :=
  ∃ recorded closing, u.Makes b recorded recorded closing

/-- The worst completion is to be closed, and is closed by then. -/
def Repeats (u : EconomicUpdate α) (b : Books α) (k : Int) : Prop :=
  u.verdict b = .ok (.closeCompletion k) ∧ b.closures.hasCompletion u.well.name k = true

/-! ## One update -/

theorem makes_of_error {fault : Fault α} (reviewed : u.verdict b = .error fault) :
    u.Makes b [] [] none := by
  rw [verdict] at reviewed
  have warned := u.well.withoutInfo_review u.source b.closures
  refine ⟨?_, _, ?_, Journal.information_eq_nil warned⟩
  · simp only [perform, Producer.settle, reviewed]
    exact .nothing _ _ _
  · simp only [perform, Producer.settle, reviewed]

theorem makes_of_ok {v : Verdict} (reviewed : u.verdict b = .ok v) {named recorded : List Int}
    {closing : Option ClosingCause}
    (adds : Adds u.well.name u.time closing.isSome recorded b.closures
      (u.well.carryOut u.time b.closures v).1)
    (said : (u.well.carryOut u.time b.closures v).2 = u.well.closureMessages named closing) :
    u.Makes b named recorded closing := by
  rw [verdict] at reviewed
  have warned := u.well.withoutInfo_review u.source b.closures
  refine ⟨?_, (u.well.review u.source b.closures).notices ++
    u.well.closureMessages named closing, ?_, ?_⟩
  · simpa only [perform, Producer.settle, reviewed] using adds
  · simp only [perform, Producer.settle, reviewed, said, if_true, List.append_assoc]
  · rw [Journal.information_append, Journal.information_eq_nil warned, List.nil_append,
      Producer.information_closureMessages]

/-- A completion is recorded unless it was before, and named in any case. -/
theorem exists_makes_of_closeCompletion {k : Int}
    (reviewed : u.verdict b = .ok (.closeCompletion k)) :
    ∃ closing,
      u.Makes b [k] (if b.closures.hasCompletion u.well.name k then [] else [k]) closing := by
  have notClosed := Producer.hasWell_of_verdict reviewed (by simp)
  have first := adds_closeCompletion u.well.name k u.time b.closures
  cases plugged : u.well.isPlugged (b.closures.closeCompletion u.well.name k u.time).2 with
  | false =>
    refine ⟨none, makes_of_ok reviewed ?_ ?_⟩
    · simp only [Producer.carryOut, plugged, Bool.false_eq_true, if_false]
      exact first
    · simp only [Producer.carryOut, plugged, Bool.false_eq_true, if_false]
      rfl
  | true =>
    refine ⟨some .lastCompletion, makes_of_ok reviewed ?_ ?_⟩
    · have second := adds_closeWell u.well.name u.time
        (b.closures.closeCompletion u.well.name k u.time).2
      rw [hasWell_closeCompletion, notClosed] at second
      simp only [Producer.carryOut, plugged, if_true]
      exact first.trans second
    · simp only [Producer.carryOut, plugged, if_true]
      rfl

theorem exists_makes_of_other (other : ∀ k, u.verdict b ≠ .ok (.closeCompletion k)) :
    ∃ closing, u.Makes b [] [] closing := by
  have closesWell {v : Verdict} (reviewed : u.verdict b = .ok v) (acts : v ≠ .keep) :
      Adds u.well.name u.time true [] b.closures
        (b.closures.closeWell u.well.name .economic u.time).2 := by
    have adds := adds_closeWell u.well.name u.time b.closures
    rwa [Producer.hasWell_of_verdict reviewed acts] at adds
  cases reviewed : u.verdict b with
  | error fault => exact ⟨none, makes_of_error reviewed⟩
  | ok v =>
    cases v with
    | keep => exact ⟨none, makes_of_ok reviewed (.nothing _ _ _) rfl⟩
    | closeForRate =>
      exact ⟨some .rate, makes_of_ok reviewed (closesWell reviewed (by simp)) rfl⟩
    | closeForRatio =>
      exact ⟨some .ratio, makes_of_ok reviewed (closesWell reviewed (by simp)) rfl⟩
    | closeCompletion k => exact absurd reviewed (other k)

theorem exists_makes_of_repeats {k : Int} (again : u.Repeats b k) :
    ∃ closing, u.Makes b [k] [] closing := by
  obtain ⟨closing, makes⟩ := exists_makes_of_closeCompletion again.1
  rw [if_pos again.2] at makes
  exact ⟨closing, makes⟩

theorem faithful_iff : u.Faithful b ↔ ∀ k, ¬ u.Repeats b k := by
  constructor
  · rintro ⟨recorded, closing, closures, added, journal, said⟩ k again
    obtain ⟨closing', closures', added', journal', said'⟩ := exists_makes_of_repeats again
    obtain rfl := closures.unique closures'
    obtain rfl := List.append_cancel_left (journal.symm.trans journal')
    have lengths := congrArg List.length (said.symm.trans said')
    -- One message more than closures: the well is recorded in both readings, or in none.
    have wells := closures.wells.symm.trans closures'.wells
    cases closing <;> cases closing' <;> simp_all [Producer.closureMessages]
  · intro fresh
    by_cases names : ∃ k, u.verdict b = .ok (.closeCompletion k)
    · obtain ⟨k, reviewed⟩ := names
      obtain ⟨closing, makes⟩ := exists_makes_of_closeCompletion reviewed
      rw [if_neg fun closed => fresh k ⟨reviewed, closed⟩] at makes
      exact ⟨[k], closing, makes⟩
    · obtain ⟨closing, makes⟩ := exists_makes_of_other (not_exists.1 names)
      exact ⟨[], closing, makes⟩

theorem hasCompletion_perform {name : String} {k : Int} :
    (perform b u).closures.hasCompletion name k = true ↔
      b.closures.hasCompletion name k = true ∨
        u.well.name = name ∧ u.verdict b = .ok (.closeCompletion k) := by
  by_cases names : ∃ id, u.verdict b = .ok (.closeCompletion id)
  · obtain ⟨id, reviewed⟩ := names
    obtain ⟨closing, makes⟩ := exists_makes_of_closeCompletion reviewed
    rw [makes.closures.hasCompletion_iff, reviewed]
    simp only [Except.ok.injEq, Verdict.closeCompletion.injEq]
    split
    · rename_i closed
      refine ⟨fun before => before.elim .inl fun added => absurd added.2 List.not_mem_nil, ?_⟩
      rintro (before | ⟨rfl, rfl⟩)
      · exact .inl before
      · exact .inl closed
    · rw [List.mem_singleton, eq_comm (a := k)]
  · obtain ⟨closing, makes⟩ := exists_makes_of_other (not_exists.1 names)
    rw [makes.closures.hasCompletion_iff]
    refine or_congr_right ⟨fun added => absurd added.2 List.not_mem_nil, ?_⟩
    rintro ⟨-, reviewed⟩
    exact absurd ⟨k, reviewed⟩ names

/-! ## Updates in a row -/

/-- A completion that is closed after some updates was closed before, or by one of them. -/
theorem hasCompletion_performAll {updates : List (EconomicUpdate α)} {name : String} {k : Int} :
    (performAll b updates).closures.hasCompletion name k = true ↔
      b.closures.hasCompletion name k = true ∨
        ∃ earlier u later, updates = earlier ++ u :: later ∧ u.well.name = name ∧
          u.verdict (performAll b earlier) = .ok (.closeCompletion k) := by
  induction updates generalizing b with
  | nil => simp [performAll]
  | cons u rest ih =>
    rw [performAll, List.foldl_cons, ← performAll, ih, hasCompletion_perform, or_assoc]
    refine or_congr_right ⟨?_, ?_⟩
    · rintro (⟨named, reviewed⟩ | ⟨earlier, v, later, rfl, named, reviewed⟩)
      · exact ⟨[], u, rest, rfl, named, reviewed⟩
      · exact ⟨u :: earlier, v, later, rfl, named, reviewed⟩
    · rintro ⟨earlier, v, later, split, named, reviewed⟩
      cases earlier with
      | nil =>
        cases split
        exact .inl ⟨named, reviewed⟩
      | cons v' earlier =>
        cases split
        exact .inr ⟨earlier, v, later, rfl, named, reviewed⟩

/-- In a row of updates that report closures, on any record, the messages of each one tell just what
it newly records, unless its verdict is to close a completion that is closed by then.  In that case
it records no completion, and its messages name this one and tell whether the well is closed.  What
is closed by then was closed at the beginning, or by an earlier update of the row. -/
theorem messages_of_updates (b : Books α) (earlier : List (EconomicUpdate α))
    (u : EconomicUpdate α) :
    let before := performAll b earlier
    (u.Faithful before ↔ ∀ k, ¬ u.Repeats before k) ∧
    (∀ k, u.Repeats before k → ∃ closing, u.Makes before [k] [] closing) ∧
    ∀ k, u.Repeats before k ↔ u.verdict before = .ok (.closeCompletion k) ∧
      (b.closures.hasCompletion u.well.name k = true ∨
        ∃ earlier' v later, earlier = earlier' ++ v :: later ∧ v.well.name = u.well.name ∧
          v.verdict (performAll b earlier') = .ok (.closeCompletion k)) :=
  ⟨faithful_iff, fun _ => exists_makes_of_repeats,
    fun _ => and_congr_right fun _ => hasCompletion_performAll⟩

def flooded (time : ℚ) : EconomicUpdate ℚ where
  well := .watered
  source := Producer.watered.sourceOf
    ⟨.flowing "P" (-60, -40, 0) [(-50, -10, 0), (-10, -30, 0)], .blackOil, .standard, time, true⟩
  time

/-- If the completion still flows after it was closed, it is said to be closed once more. -/
theorem flooded_again :
    let before := performAll ⟨.empty, [], 0⟩ [flooded 3]
    (flooded 5).Repeats before 1 ∧
      (perform before (flooded 5)).closures.completions.entries = [(("P", 1), 3)] ∧
      (perform before (flooded 5)).journal =
        before.journal ++ [.info "Completion 1 for well P will be closed due to economic limit"] ∧
      ¬ (flooded 5).Faithful before := by
  intro before
  have again : (flooded 5).Repeats before 1 := ⟨by decide +kernel, by decide +kernel⟩
  refine ⟨again, by decide +kernel, by decide +kernel, ?_⟩
  exact fun faithful => faithful_iff.1 faithful 1 again

end EconomicUpdate

/-! ## Completions that do not flow once they are closed -/

/-- Where closed completions do not flow, the messages of an update tell what it records. -/
theorem EconomicUpdate.faithful_of_drained {w : Producer ℚ} {b : Books ℚ} {c : EconomicCall}
    (drained : w.Drained b.closures c) :
    EconomicUpdate.Faithful ⟨w, w.sourceOf c, c.time⟩ b := by
  refine faithful_iff.2 ?_
  rintro k ⟨reviewed, closed⟩
  have considered : b.closures.exempts w.name c.state = false :=
    Producer.considered_of_verdict reviewed (by simp)
  obtain ⟨-, worst, -⟩ := Producer.policy_eq_closeCompletion_iff.1
    (Producer.policy_of_review considered reviewed).symm
  have stillOpen := (Producer.mem_openCompletions.1 (Producer.open_of_worst? drained worst)).2
  rw [stillOpen] at closed
  cases closed

end WellControl
