import WellControl.Catalog

/-!
# Looking up after an update

A catalog is seen through `get?`, which finds exactly the entries listed, and through `keys`.
Each update is stated on these views: the key it names has its new value, every other key what
it had.
-/

set_option autoImplicit false

namespace WellControl.Catalog
variable {κ ν : Type}

@[ext] theorem ext {c d : Catalog κ ν} (h : c.entries = d.entries) : c = d := by
  cases c; cases d; cases h; rfl

@[simp] theorem keys_mapValues (f : κ → ν → ν) (c : Catalog κ ν) :
    (c.mapValues f).keys = c.keys := by
  simp [keys, mapValues, List.map_map, Function.comp_def]

variable [DecidableEq κ]

theorem get?_eq_some_iff {c : Catalog κ ν} {k : κ} {v : ν} :
    c.get? k = some v ↔ (k, v) ∈ c.entries := by
  obtain ⟨entries, distinct⟩ := c
  simp only [get?]
  induction entries with
  | nil => simp
  | cons e rest ih =>
    obtain ⟨a, b⟩ := e
    rw [List.map_cons, List.nodup_cons] at distinct
    by_cases h : a = k
    · subst h
      have absent : (a, v) ∉ rest := fun mem =>
        distinct.1 (List.mem_map.2 ⟨_, mem, rfl⟩)
      simp [absent, eq_comm]
    · simp [h, ih distinct.2, Ne.symm h]

theorem get?_eq_none_iff {c : Catalog κ ν} {k : κ} : c.get? k = none ↔ k ∉ c.keys := by
  simp only [get?, keys, Option.map_eq_none_iff, List.find?_eq_none, List.mem_map, not_exists,
    not_and, decide_eq_true_eq]

omit [DecidableEq κ] in
@[simp] theorem keys_append (c : Catalog κ ν) (k : κ) (v : ν) (fresh : k ∉ c.keys) :
    (c.append k v fresh).keys = c.keys ++ [k] := by
  simp [keys, append]

theorem get?_append (c : Catalog κ ν) (k : κ) (v : ν) (fresh : k ∉ c.keys) (k' : κ) :
    (c.append k v fresh).get? k' = if k' = k then some v else c.get? k' := by
  by_cases h : k' = k
  · subst h
    rw [if_pos rfl]
    exact get?_eq_some_iff.2 (by simp [append])
  · rw [if_neg h]
    simp [get?, append, List.find?_append, Ne.symm h]

theorem get?_mapValues (f : κ → ν → ν) (c : Catalog κ ν) (k : κ) :
    (c.mapValues f).get? k = (c.get? k).map (f k) := by
  simp only [get?, mapValues, List.find?_map, Option.map_map]
  induction c.entries with
  | nil => rfl
  | cons e rest ih =>
    by_cases h : e.1 = k
    · subst h; simp
    · simpa [h] using ih

theorem get?_put (c : Catalog κ ν) (k : κ) (v : ν) (k' : κ) :
    (c.put k v).get? k' = if k' = k then some v else c.get? k' := by
  unfold put
  split
  · next listed =>
    rw [get?_mapValues]
    by_cases h : k' = k
    · subst h
      cases found : c.get? k' with
      | none => exact absurd listed (get?_eq_none_iff.1 found)
      | some old => simp
    · simp [h]
  · next fresh => rw [get?_append]

theorem get?_insertNew (c : Catalog κ ν) (k : κ) (v : ν) (k' : κ) :
    (c.insertNew k v).2.get? k' =
      if k' = k then some ((c.get? k).getD v) else c.get? k' := by
  unfold insertNew
  split
  · next listed =>
    by_cases h : k' = k
    · subst h
      cases found : c.get? k' with
      | none => exact absurd listed (get?_eq_none_iff.1 found)
      | some old => simp
    · simp [h]
  · next fresh =>
    rw [get?_append]
    simp [get?_eq_none_iff.2 fresh]

theorem get?_keepKeys (p : κ → Bool) (c : Catalog κ ν) (k : κ) :
    (c.keepKeys p).get? k = if p k then c.get? k else none := by
  simp only [get?, keepKeys]
  induction c.entries with
  | nil => simp
  | cons e rest ih =>
    by_cases h : e.1 = k
    · subst h
      by_cases kept : p e.1 <;> simp [kept] at ih ⊢
      exact ih
    · by_cases kept : p e.1 <;> simpa [kept, h] using ih

theorem get?_erase (c : Catalog κ ν) (k k' : κ) :
    (c.erase k).get? k' = if k' = k then none else c.get? k' := by
  rw [erase, get?_keepKeys]
  by_cases h : k' = k <;> simp [h]

end WellControl.Catalog
