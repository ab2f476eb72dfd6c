import WellControl.Economic.WorstCompletion
import WellControl.Proofs.Grid.Rows
import WellControl.Proofs.Outcome
import WellControl.Proofs.Well.Completions

/-! # Rates of completions

The connections of a well are grouped into completions; what a completion flows is added up row
by row, over the connections owned here. -/
set_option autoImplicit false

namespace WellControl

theorem le_foldl_max (xs : List Nat) (start : Nat) :
    start ≤ xs.foldl max start ∧ ∀ x ∈ xs, x ≤ xs.foldl max start := by
  induction xs generalizing start with
  | nil => exact ⟨Nat.le_refl start, fun x listed => absurd listed List.not_mem_nil⟩
  | cons y rest ih =>
    obtain ⟨above, aboveAll⟩ := ih (max start y)
    refine ⟨Nat.le_trans (Nat.le_max_left start y) above, fun x listed => ?_⟩
    rcases List.mem_cons.1 listed with rfl | later
    · exact Nat.le_trans (Nat.le_max_right start x) above
    · exact aboveAll x later

namespace RatioSource
variable {α : Type} [Scalar α]

/-- Perforation rates have one entry per active phase, and a row wherever the well has a
connection. -/
def HasRows (r : RatioSource α) : Prop :=
  ∃ rows, r.state.perforationRates.shape = [rows, r.table.size] ∧ r.rowsNeeded ≤ rows

theorem HasRows.shape_ne {r : RatioSource α} (rowed : r.HasRows) :
    r.state.perforationRates.shape ≠ [] := by
  obtain ⟨rows, shape, _⟩ := rowed
  rw [shape]
  exact List.cons_ne_nil _ _

theorem HasRows.not_missing {r : RatioSource α} (rowed : r.HasRows) :
    ¬ r.state.perforationRates.extent < r.rowsNeeded := by
  obtain ⟨rows, shape, enough⟩ := rowed
  rw [Grid.extent, shape]
  exact Nat.not_lt.2 enough

theorem index_lt_rowsNeeded (r : RatioSource α) {c : Connection} (listed : c ∈ r.well.connections) :
    c.index < r.rowsNeeded :=
  (le_foldl_max (r.well.connections.map Connection.number) 0).2 c.number
    (List.mem_map.2 ⟨c, listed, rfl⟩)

theorem completion_lt_rowsNeeded {r : RatioSource α} {id : Int} {indices : List Nat}
    (completion : (id, indices) ∈ r.well.completions) : ∀ i ∈ indices, i < r.rowsNeeded := by
  intro i listed
  obtain ⟨c, connected, rfl⟩ := exists_connection_of_mem completion listed
  exact r.index_lt_rowsNeeded connected

def ownSum (r : RatioSource α) (connections : List Nat) (position : Nat) : α :=
  Scalar.sum ((connections.filter fun (i : Nat) => r.ownership.isOwner i).map fun i =>
    r.state.perforationRates.cell i position)

theorem foldlM_rows {g : Grid α} {rows width : Nat} (shape : g.shape = [rows, width])
    (connections : List Nat) (inside : ∀ i ∈ connections, i < rows) (f : Fin width → α) :
    connections.foldlM (m := Except (Fault α))
        (fun sum i =>
          match g.part? i with
          | some part => Rates.addPart sum part
          | none => .error .missingRate)
        (List.ofFn f) =
      .ok (List.ofFn fun j => (connections.map fun i => g.cell i j).foldl (· + ·) (f j)) := by
  induction connections generalizing f with
  | nil => rfl
  | cons i rest ih =>
    obtain ⟨part, found, partShape⟩ := g.exists_part? shape (inside i List.mem_cons_self)
    rw [List.foldlM_cons, found]
    simp only [Rates.addPart_row found partShape, Outcome.ok_bind]
    exact ih (fun i' later => inside i' (List.mem_cons_of_mem i later)) fun j => f j + g.cell i j

theorem ownRates_eq {r : RatioSource α} (rowed : r.HasRows) {connections : List Nat}
    (inside : ∀ i ∈ connections, i < r.rowsNeeded) :
    r.ownRates connections =
      .ok (List.ofFn fun j : Fin r.table.size => r.ownSum connections j) := by
  obtain ⟨rows, shape, enough⟩ := rowed
  rw [ownRates, PhaseTable.zeros, ← List.ofFn_const]
  exact foldlM_rows shape _
    (fun i kept => Nat.lt_of_lt_of_le (inside i ((List.mem_filter.1 kept).1)) enough) _

end RatioSource
end WellControl
