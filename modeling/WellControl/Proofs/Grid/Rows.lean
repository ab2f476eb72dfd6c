import Mathlib.Data.List.GetD
import Mathlib.Data.List.OfFn
import WellControl.Rates

/-! # Rows of a grid

A grid of two axes is read row by row.  `Grid.cell` is what stands at one place of a row, zero
outside; rows of the right width are determined by their cells, and add up cell by cell. -/
set_option autoImplicit false

namespace WellControl

theorem ofFn_getD {α : Type} {width : Nat} {xs : List α} (length_eq : xs.length = width) (x : α) :
    (List.ofFn fun j : Fin width => xs.getD j x) = xs := by
  subst length_eq
  apply List.ext_getElem
  · rw [List.length_ofFn]
  · intro j _ inside
    rw [List.getElem_ofFn, List.getD_eq_getElem xs x inside]

namespace Grid
variable {α : Type}

theorem exists_part? {g : Grid α} {rows i : Nat} {rest : List Nat} (shape : g.shape = rows :: rest)
    (inside : i < rows) : ∃ part, g.part? i = some part ∧ part.shape = rest := by
  obtain ⟨_, entries, full⟩ := g
  subst shape
  simp only [part?, inside, ↓reduceDIte, Option.some.injEq, exists_eq_left']

theorem part?_eq_none {g : Grid α} {rows i : Nat} {rest : List Nat} (shape : g.shape = rows :: rest)
    (outside : ¬ i < rows) : g.part? i = none := by
  obtain ⟨_, entries, full⟩ := g
  subst shape
  exact dif_neg outside

theorem entries_part?_subset {g part : Grid α} {row : Nat} (found : g.part? row = some part) :
    part.entries ⊆ g.entries := by
  obtain ⟨shape, entries, full⟩ := g
  cases shape with
  | nil => cases found
  | cons rows rest =>
    simp only [part?] at found
    split at found
    · cases found
      exact fun x listed => List.mem_of_mem_drop (List.mem_of_mem_take listed)
    · cases found

variable [Scalar α]

def cell (g : Grid α) (row column : Nat) : α :=
  match g.part? row with
  | some part => part.entries.getD column 0
  | none => 0

theorem cell_congr {g h : Grid α} {row : Nat} (same : g.part? row = h.part? row) (column : Nat) :
    g.cell row column = h.cell row column := by
  rw [cell, cell, same]

theorem entries_row {g part : Grid α} {row width : Nat} (found : g.part? row = some part)
    (shape : part.shape = [width]) :
    part.entries = List.ofFn fun j : Fin width => g.cell row j := by
  have length_eq : part.entries.length = width := by
    rw [part.full, shape]
    exact Nat.mul_one width
  simp only [cell, found]
  exact (ofFn_getD length_eq 0).symm

theorem cell_eq_zero_or_mem (g : Grid α) (row column : Nat) :
    g.cell row column = 0 ∨ g.cell row column ∈ g.entries := by
  unfold cell
  split
  · rename_i part found
    rcases Nat.lt_or_ge column part.entries.length with inside | outside
    · rw [List.getD_eq_getElem _ _ inside]
      exact .inr (entries_part?_subset found (List.getElem_mem inside))
    · rw [List.getD_eq_default _ _ outside]
      exact .inl rfl
  · exact .inl rfl

end Grid

namespace Rates
variable {α : Type} [Scalar α] {width : Nat}

theorem add_ofFn (f g : Fin width → α) :
    add (List.ofFn f) (List.ofFn g) = .ok (List.ofFn fun j => f j + g j) := by
  rw [add_of_length_eq (by rw [List.length_ofFn, List.length_ofFn])]
  congr 1
  apply List.ext_getElem
  · simp only [List.length_zipWith, List.length_ofFn, Nat.min_self]
  · intro j _ _
    simp only [List.getElem_zipWith, List.getElem_ofFn]

/-- A row of a grid adds to an array of its width cell by cell. -/
theorem addPart_row {g part : Grid α} {row : Nat} (found : g.part? row = some part)
    (shape : part.shape = [width]) (f : Fin width → α) :
    addPart (List.ofFn f) part = .ok (List.ofFn fun j => f j + g.cell row j) := by
  have flat : part.shape.length ≤ 1 := by
    rw [shape]
    exact Nat.le_refl 1
  rw [addPart, if_pos flat, Grid.entries_row found shape, add_ofFn]

end Rates
end WellControl
