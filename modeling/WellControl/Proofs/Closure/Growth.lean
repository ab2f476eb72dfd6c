import WellControl.Catalog.Lemmas
import WellControl.Closure.Record

/-! # How a review adds to the closure record

A review only ever adds closures at the end of the record: of the reviewed well, at the time of
the review, and for wells with the economic reason.  What was recorded stays in its place, and
what is recorded of other wells is not touched (`ClosureRecord.Growth`). -/
set_option autoImplicit false

namespace WellControl

namespace Catalog
variable {κ ν : Type} [DecidableEq κ]

theorem entries_insertNew (c : Catalog κ ν) (k : κ) (v : ν) :
    (c.insertNew k v).2.entries = c.entries ++ if k ∈ c.keys then [] else [(k, v)] := by
  unfold insertNew
  by_cases listed : k ∈ c.keys
  · rw [dif_pos listed, if_pos listed, List.append_nil]
  · rw [dif_neg listed, if_neg listed]
    rfl

theorem has_eq_true_iff {c : Catalog κ ν} {k : κ} : c.has k = true ↔ k ∈ c.keys := by
  simp [has]

omit [DecidableEq κ] in
/-- What stands behind the entries of a catalog in a longer one has keys of its own. -/
theorem fresh_of_entries_eq_append {c d : Catalog κ ν} {new : List (κ × ν)}
    (grown : d.entries = c.entries ++ new) {k : κ} (added : k ∈ new.map Prod.fst) :
    k ∉ c.keys := by
  have distinct := d.distinct
  rw [grown, List.map_append, List.nodup_append] at distinct
  exact fun listed => distinct.2.2 k listed k added rfl

end Catalog

namespace ClosureRecord
variable {α : Type}

/-- `after` is `before` with closures of one well, made at one time, added at the end. -/
structure Growth (name : String) (time : α) (before after : ClosureRecord α) : Prop where
  wells : ∃ reasons : List ClosureReason, (∀ reason ∈ reasons, reason = .economic) ∧
    after.wells.entries = before.wells.entries ++
      reasons.map fun reason => ((name, reason), time)
  completions : ∃ ids : List Int,
    after.completions.entries = before.completions.entries ++ ids.map fun id => ((name, id), time)

namespace Growth
variable {name : String} {time : α} {before after : ClosureRecord α}

theorem refl (name : String) (time : α) (c : ClosureRecord α) : Growth name time c c :=
  ⟨⟨[], by simp, by simp⟩, ⟨[], by simp⟩⟩

/-! ## What growth leaves alone -/

theorem hasWell_of_hasWell (growth : Growth name time before after) {other : String}
    {reason : ClosureReason} (closed : before.hasWell other (some reason) = true) :
    after.hasWell other (some reason) = true := by
  obtain ⟨⟨reasons, _, wells⟩, _⟩ := growth
  have listed := Catalog.has_eq_true_iff.1 closed
  refine Catalog.has_eq_true_iff.2 ?_
  rw [Catalog.keys, wells, List.map_append]
  exact List.mem_append_left _ listed

theorem hasCompletion_of_hasCompletion (growth : Growth name time before after) {other : String}
    {id : Int} (closed : before.hasCompletion other id = true) :
    after.hasCompletion other id = true := by
  obtain ⟨_, ids, completions⟩ := growth
  have listed := Catalog.has_eq_true_iff.1 closed
  refine Catalog.has_eq_true_iff.2 ?_
  rw [Catalog.keys, completions, List.map_append]
  exact List.mem_append_left _ listed

theorem hasWell_other (growth : Growth name time before after) {other : String}
    (different : other ≠ name) (reason : ClosureReason) :
    after.hasWell other (some reason) = before.hasWell other (some reason) := by
  obtain ⟨⟨reasons, _, wells⟩, _⟩ := growth
  have same : (other, reason) ∈ after.wells.keys ↔ (other, reason) ∈ before.wells.keys := by
    rw [Catalog.keys, wells, List.map_append, List.mem_append, List.map_map]
    refine or_iff_left ?_
    intro added
    obtain ⟨_, _, pair⟩ := List.mem_map.1 added
    exact different (congrArg Prod.fst pair).symm
  exact decide_eq_decide.2 same

theorem closedCompletions_other (growth : Growth name time before after) {other : String}
    (different : other ≠ name) :
    after.closedCompletions other = before.closedCompletions other := by
  obtain ⟨_, ids, completions⟩ := growth
  have none_added : ((ids.map fun id => ((name, id), time)).map Prod.fst).filter
      (fun k => decide (k.1 = other)) = [] := by
    rw [List.filter_eq_nil_iff]
    intro k member
    rw [List.map_map] at member
    obtain ⟨id, _, rfl⟩ := List.mem_map.1 member
    simpa using different.symm
  rw [closedCompletions, closedCompletions, Catalog.keys, completions, List.map_append,
    List.filter_append, none_added, List.append_nil]
  rfl

/-- The completions of the well itself that are closed: those before, then those added. -/
theorem closedCompletions_self {ids : List Int}
    (completions : after.completions.entries =
      before.completions.entries ++ ids.map fun id => ((name, id), time)) :
    after.closedCompletions name = before.closedCompletions name ++ ids := by
  have all_added : ((ids.map fun id => ((name, id), time)).map Prod.fst).filter
      (fun k => decide (k.1 = name)) = ids.map fun id => (name, id) := by
    rw [List.map_map, List.filter_eq_self.2]
    · rfl
    · intro k member
      obtain ⟨id, _, rfl⟩ := List.mem_map.1 member
      simp
  rw [closedCompletions, closedCompletions, Catalog.keys, completions, List.map_append,
    List.filter_append, all_added, List.map_append, List.map_map]
  congr 1
  exact List.map_id ids

end Growth

theorem mem_closedCompletions {c : ClosureRecord α} {name : String} {id : Int} :
    id ∈ c.closedCompletions name ↔ (name, id) ∈ c.completions.keys := by
  rw [closedCompletions, List.mem_map]
  constructor
  · rintro ⟨⟨other, id'⟩, member, rfl⟩
    obtain ⟨listed, same⟩ := List.mem_filter.1 member
    have : other = name := by simpa using same
    exact this ▸ listed
  · intro listed
    exact ⟨(name, id), List.mem_filter.2 ⟨listed, by simp⟩, rfl⟩

end ClosureRecord

end WellControl
