import Mathlib.Algebra.BigOperators.Group.List.Basic
import WellControl.Proofs.Grouping
import WellControl.Well.Connection

/-! # Completions of a well

The completions of a well sort its connections by their completion ids: each id occurs once, each
connection belongs to one completion, and what is added up completion by completion is added up over
all connections. -/
set_option autoImplicit false

namespace WellControl

theorem mem_completionsOf {cs : List Connection} {id : Int} {indices : List Nat} :
    (id, indices) ∈ completionsOf cs ↔ (∃ c ∈ cs, c.completionId = id) ∧
      indices = (cs.filter fun c => c.completionId = id).map Connection.index := by
  simp only [completionsOf, List.mem_map, List.mem_eraseDups, Prod.mk.injEq]
  constructor
  · rintro ⟨id', ⟨c, listed, rfl⟩, rfl, rfl⟩
    exact ⟨⟨c, listed, rfl⟩, rfl⟩
  · rintro ⟨⟨c, listed, rfl⟩, rfl⟩
    exact ⟨_, ⟨c, listed, rfl⟩, rfl, rfl⟩

theorem nodup_completionsOf (cs : List Connection) : ((completionsOf cs).map Prod.fst).Nodup := by
  have ids : (completionsOf cs).map Prod.fst = (cs.map Connection.completionId).eraseDups := by
    simp [completionsOf, Function.comp_def]
  rw [ids]
  exact nodup_eraseDups _

theorem exists_connection_of_mem {cs : List Connection} {id : Int} {indices : List Nat} {i : Nat}
    (completion : (id, indices) ∈ completionsOf cs) (listed : i ∈ indices) :
    ∃ c ∈ cs, c.index = i := by
  obtain ⟨_, rfl⟩ := mem_completionsOf.1 completion
  obtain ⟨c, kept, rfl⟩ := List.mem_map.1 listed
  exact ⟨c, (List.mem_filter.1 kept).1, rfl⟩

theorem perm_completionsOf (cs : List Connection) :
    ((completionsOf cs).flatMap Prod.snd).Perm (cs.map Connection.index) := by
  have grouped := perm_groups (nodup_eraseDups (cs.map Connection.completionId))
    Connection.completionId fun c listed => List.mem_eraseDups.2 (List.mem_map_of_mem listed)
  rw [completionsOf, List.flatMap_map, ← List.map_flatMap]
  exact grouped.map Connection.index

theorem sum_completionsOf {M : Type} [AddCommMonoid M] (cs : List Connection) (x : Nat → M) :
    ((completionsOf cs).map fun e => (e.2.map x).sum).sum =
      (cs.map fun c => x c.index).sum := by
  have whole := ((perm_completionsOf cs).map x).sum_eq
  rw [List.map_flatMap, List.flatMap, List.sum_flatten, List.map_map, List.map_map] at whole
  exact whole

end WellControl
