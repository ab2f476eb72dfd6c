import Mathlib.Data.List.Perm.Basic

/-! # Lists sorted by a key

The members of a list that have one key form a group.  Over distinct keys, among them those of all
members, the groups together hold each member once. -/
set_option autoImplicit false

namespace WellControl
variable {β κ : Type} [DecidableEq κ]

theorem nodup_eraseDups (ids : List κ) : ids.eraseDups.Nodup := by
  cases ids with
  | nil => exact List.nodup_nil
  | cons id rest =>
    rw [List.eraseDups_cons, List.nodup_cons]
    constructor
    · intro again
      have kept := (List.mem_filter.1 (List.mem_eraseDups.1 again)).2
      rw [beq_self_eq_true] at kept
      cases kept
    · exact nodup_eraseDups (rest.filter fun id' => !id' == id)
termination_by ids.length
decreasing_by exact Nat.lt_succ_of_le (List.length_filter_le _ rest)

theorem perm_groups {ids : List κ} (distinct : ids.Nodup) (key : β → κ) {cs : List β}
    (sorted : ∀ c ∈ cs, key c ∈ ids) :
    (ids.flatMap fun id => cs.filter fun c => key c = id).Perm cs := by
  induction ids generalizing cs with
  | nil =>
    cases cs with
    | nil => exact .nil
    | cons c rest => exact absurd (sorted c List.mem_cons_self) List.not_mem_nil
  | cons id rest ih =>
    obtain ⟨fresh, distinct'⟩ := List.nodup_cons.1 distinct
    let others := cs.filter fun c => !decide (key c = id)
    have later : ∀ c ∈ others, key c ∈ rest := by
      intro c other
      obtain ⟨listed, apart⟩ := List.mem_filter.1 other
      exact (List.mem_cons.1 (sorted c listed)).resolve_left (by simpa using apart)
    -- what has a later key is among the others anyway
    have same : ∀ id' ∈ rest, (cs.filter fun c => key c = id') =
        others.filter fun c => key c = id' := by
      intro id' listed
      rw [List.filter_filter]
      apply List.filter_congr
      intro c _
      by_cases shared : key c = id'
      · have apart : id' ≠ id := fun equal => fresh (equal ▸ listed)
        simp [shared, apart]
      · simp [shared]
    rw [List.flatMap_cons, List.flatMap_congr same]
    exact ((ih distinct' later).append_left _).trans (List.filter_append_perm _ cs)

end WellControl
