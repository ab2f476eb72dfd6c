import Mathlib.Data.List.Duplicate
import Mathlib.Data.List.Nodup
import WellControl.Proofs.Grouping
import WellControl.Proofs.Plain
import WellControl.Well.Collection

/-! # Collections by name and by group

Counting names finds those that occur twice, each listed once and in order (`mem_repeated`,
`pairwise_repeated`), and so a collection is accepted exactly when no two of its wells share a name.
A name then belongs to one well at most, which is the one that a lookup finds, and each well stands
in the list of its group and in no other (`Wells.Faithful`). -/
set_option autoImplicit false

namespace WellControl

/-! ## Names that occur twice -/

section Repeated
variable {names : List String}

theorem mem_repeated {name : String} : name ∈ repeated names ↔ List.Duplicate name names := by
  rw [repeated, List.mem_mergeSort, List.mem_eraseDups, List.mem_filter, decide_eq_true_iff,
    List.duplicate_iff_two_le_count]
  apply and_iff_right_of_imp
  intro twice
  exact List.count_pos_iff.1 (Nat.zero_lt_of_lt twice)

/-- The names are in order, and since they are distinct none stands beside itself. -/
theorem pairwise_repeated (names : List String) : (repeated names).Pairwise (· < ·) := by
  have ordered : (repeated names).Pairwise fun a b => decide (a ≤ b) = true := by
    apply List.pairwise_mergeSort
    · intro a b c first second
      exact decide_eq_true (String.le_trans (of_decide_eq_true first) (of_decide_eq_true second))
    · intro a b
      simpa using String.le_total a b
  have distinct : (repeated names).Nodup :=
    (List.mergeSort_perm _ _).nodup_iff.2 (nodup_eraseDups _)
  refine (ordered.and distinct).imp fun {a b} ⟨le, different⟩ => ?_
  rw [← String.not_le]
  exact fun ge => different (String.le_antisymm (of_decide_eq_true le) ge)

theorem repeated_eq_nil_iff : repeated names = [] ↔ names.Nodup := by
  simp only [List.eq_nil_iff_forall_not_mem, List.nodup_iff_forall_not_duplicate, mem_repeated]

end Repeated

namespace Wells
variable {α : Type} [Scalar α] {ws : Wells α} {name : String} {w w' : Well α}

/-! ## Acceptance -/

theorem names_eq (ws : Wells α) :
    ws.names = ws.injectors.map (·.name) ++ ws.producers.map (·.name) := by
  rw [names, all, List.map_append, List.map_map, List.map_map]
  rfl

theorem accept_of_nodup (distinct : ws.names.Nodup) : ws.accept = .ok ws :=
  if_pos (repeated_eq_nil_iff.2 distinct)

theorem accept_of_not_nodup (shared : ¬ ws.names.Nodup) :
    ws.accept = .error (.duplicateWells (repeated ws.names)) :=
  if_neg (mt repeated_eq_nil_iff.1 shared)

theorem eq_and_nodup_of_accept {ws' : Wells α} (accepted : ws.accept = .ok ws') :
    ws' = ws ∧ ws.names.Nodup := by
  by_cases distinct : ws.names.Nodup
  · rw [accept_of_nodup distinct] at accepted
    cases accepted
    exact ⟨rfl, distinct⟩
  · rw [accept_of_not_nodup distinct] at accepted
    cases accepted

/-! ## Lookup -/

theorem exists_find?_iff : (∃ w, ws.find? name = some w) ↔ ∃ w ∈ ws.all, w.name = name := by
  rw [← Option.isSome_iff_exists, find?, List.find?_isSome]
  simp only [decide_eq_true_eq]

theorem mem_of_find? (found : ws.find? name = some w) : w ∈ ws.all ∧ w.name = name := by
  have named := List.find?_some found
  exact ⟨List.mem_of_find?_eq_some found, of_decide_eq_true named⟩

theorem eq_of_name (distinct : ws.names.Nodup) (listed : w ∈ ws.all) (listed' : w' ∈ ws.all)
    (same : w'.name = w.name) : w' = w :=
  List.inj_on_of_nodup_map distinct listed' listed same

theorem get_eq_ok_iff : ws.get name = .ok w ↔ ws.find? name = some w := by
  unfold get
  split
  · rename_i found
    rw [found, Except.ok.injEq, Option.some.injEq]
  · rename_i missing
    rw [missing]
    exact iff_of_false nofun nofun

theorem get_eq_error_iff {fault : Fault α} :
    ws.get name = .error fault ↔ ws.find? name = none ∧ fault = .unlisted name := by
  unfold get
  split
  · rename_i found
    rw [found]
    exact iff_of_false nofun nofun
  · rename_i missing
    rw [missing, Except.error.injEq, eq_comm]
    exact (and_iff_right rfl).symm

/-! ## Faithful collections -/

structure Refused (ws : Wells α) (fault : Fault α) : Prop where
  kind : fault.kind = .validation
  /-- They are listed in order and each once. -/
  listed : ∃ names : List String, fault = .duplicateWells names ∧ names.Pairwise (· < ·) ∧
    ∀ name, name ∈ names ↔
      List.Duplicate name (ws.injectors.map (·.name) ++ ws.producers.map (·.name))

/-- A collection answers by name and by group as its wells say. -/
structure Faithful (ws : Wells α) : Prop where
  order : ws.all = ws.injectors.map Well.injector ++ ws.producers.map Well.producer
  once : ws.all.Nodup
  found : ∀ name, (∃ w, ws.find? name = some w) ↔ ∃ w ∈ ws.all, w.name = name
  unique : ∀ name w, ws.find? name = some w →
    w ∈ ws.all ∧ ∀ w' ∈ ws.all, w'.name = name ↔ w' = w
  got : ∀ name w, ws.get name = .ok w ↔ ws.find? name = some w
  missing : ∀ name fault, ws.get name = .error fault ↔
    ws.find? name = none ∧ fault = .unlisted name
  kind : ∀ name fault, ws.get name = .error fault → fault.kind = .lookup
  member : ∀ group w, w ∈ ws.inGroup group ↔ w ∈ ws.all ∧ w.groupName = group
  /-- The wells of a group stand in the order of the collection. -/
  inOrder : ∀ group, (ws.inGroup group).Sublist ws.all
  /-- The groups together hold each well once, in whichever order they are listed. -/
  whole : ∀ groups : List String, groups.Nodup → (∀ w ∈ ws.all, w.groupName ∈ groups) →
    (groups.flatMap ws.inGroup).Perm ws.all ∧ (groups.flatMap ws.inGroup).Nodup

theorem faithful_of_nodup (distinct : ws.names.Nodup) : ws.Faithful where
  order := rfl
  once := .of_map _ distinct
  found name := exists_find?_iff
  unique name w found := by
    obtain ⟨listed, rfl⟩ := mem_of_find? found
    refine ⟨listed, fun w' listed' => ⟨eq_of_name distinct listed listed', ?_⟩⟩
    rintro rfl
    rfl
  got name w := get_eq_ok_iff
  missing name fault := get_eq_error_iff
  kind name fault failed := by
    obtain ⟨-, rfl⟩ := get_eq_error_iff.1 failed
    rfl
  member group w := by rw [inGroup, List.mem_filter, decide_eq_true_iff]
  inOrder group := List.filter_sublist
  whole groups once sorted := by
    have grouped : (groups.flatMap ws.inGroup).Perm ws.all := perm_groups once _ sorted
    exact ⟨grouped, grouped.nodup_iff.2 (.of_map _ distinct)⟩

/-- A collection of injectors and producers is accepted as it is if and only if no name occurs twice
among them, and is else refused with the names that do.  In an accepted collection a lookup finds
the one well of a name, if there is any, and the groups partition the wells. -/
theorem accept_faithful (ws : Wells α) :
    ((∃ ws', ws.accept = .ok ws') ↔
      (ws.injectors.map (·.name) ++ ws.producers.map (·.name)).Nodup) ∧
    (∀ fault, ws.accept = .error fault → ws.Refused fault) ∧
    ∀ ws', ws.accept = .ok ws' → ws' = ws ∧ ws'.Faithful := by
  refine ⟨?_, fun fault refused => ?_, fun ws' accepted => ?_⟩
  · rw [← names_eq]
    constructor
    · rintro ⟨ws', accepted⟩
      exact (eq_and_nodup_of_accept accepted).2
    · intro distinct
      exact ⟨ws, accept_of_nodup distinct⟩
  · have shared : ¬ ws.names.Nodup := by
      intro distinct
      rw [accept_of_nodup distinct] at refused
      cases refused
    rw [accept_of_not_nodup shared] at refused
    cases refused
    refine ⟨rfl, _, rfl, pairwise_repeated _, fun name => ?_⟩
    rw [← names_eq]
    exact mem_repeated
  · obtain ⟨rfl, distinct⟩ := eq_and_nodup_of_accept accepted
    exact ⟨rfl, faithful_of_nodup distinct⟩

def twoGroups : Wells ℚ where
  injectors := [{ WellHeader.plain "I" "G" with controls := .free .water }]
  producers := [.plain "P" "F", .plain "Q" "G"]

def sharedNames : Wells ℚ where
  injectors := [{ WellHeader.plain "Q" "G" with controls := .free .water }]
  producers := [.plain "P" "F", .plain "Q" "F", .plain "P" "G", .plain "R" "G"]

theorem twoGroups_faithful :
    (twoGroups.accept = .ok twoGroups ∧ twoGroups.Faithful ∧
      (["G", "F"].flatMap twoGroups.inGroup).Perm twoGroups.all) ∧
    sharedNames.accept = .error (.duplicateWells ["P", "Q"]) ∧
    sharedNames.Refused (.duplicateWells ["P", "Q"]) := by
  constructor
  · obtain ⟨accepts, -, faithful⟩ := accept_faithful twoGroups
    obtain ⟨ws, accepted⟩ := accepts.2 (by decide)
    obtain ⟨rfl, faithful⟩ := faithful ws accepted
    exact ⟨accepted, faithful, (faithful.whole ["G", "F"] (by decide) (by decide)).1⟩
  · have twice : (sharedNames.names.filter fun n => 1 < sharedNames.names.count n).eraseDups =
        ["Q", "P"] := by decide
    have sorted : (repeated sharedNames.names).Perm ["P", "Q"] := by
      rw [repeated, twice]
      exact (List.mergeSort_perm _ _).trans (.swap ..)
    have listed : repeated sharedNames.names = ["P", "Q"] :=
      sorted.eq_of_pairwise (fun a b _ _ lt gt => absurd gt (String.lt_asymm lt))
        (pairwise_repeated _) (by decide)
    have refused : sharedNames.accept = .error (.duplicateWells ["P", "Q"]) := by
      rw [← listed]
      exact accept_of_not_nodup (by decide)
    exact ⟨refused, (accept_faithful sharedNames).2.1 _ refused⟩

end Wells
end WellControl
