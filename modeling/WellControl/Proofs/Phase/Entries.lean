import Mathlib.Data.List.Nodup
import WellControl.Control.Individual
import WellControl.Proofs.Outcome

/-! # Entries of rate arrays

An array with one entry for each active phase can be read for every one of them, and is determined
by what is read.  Nothing is missing from it (`PhaseTable.rate_eq`), and a phase that it has no
entry for is one that is not active (`PhaseTable.rate_of_inactive`). -/
set_option autoImplicit false

namespace WellControl

namespace PhaseTable
variable {α : Type} {t : PhaseTable} {p : Phase}

theorem has_iff : t.has p = true ↔ p ∈ t.active := decide_eq_true_iff

theorem exists_position (active : p ∈ t.active) :
    ∃ (i : Nat) (inside : i < t.size), t.active.idxOf? p = some i ∧ t.active[i] = p := by
  obtain ⟨i, located⟩ := Option.isSome_iff_exists.1 (List.isSome_idxOf?.2 active)
  obtain ⟨inside, found, -⟩ := List.idxOf?_eq_some_iff.1 located
  exact ⟨i, inside, located, found⟩

theorem position_of_inactive (inactive : p ∉ t.active) :
    (t.position p : Outcome α Nat) = .error (.inactivePhase p) := by
  rw [position, List.idxOf?_eq_none_iff.2 inactive]

theorem position_eq (active : p ∈ t.active) :
    (t.position p : Outcome α Nat) = .ok (t.active.idxOf p) := by
  obtain ⟨i, -, located, -⟩ := exists_position active
  rw [position, List.idxOf_eq_getD_idxOf?, located]
  rfl

theorem position_of_active (active : p ∈ t.active) :
    ∃ i, (t.position p : Outcome α Nat) = .ok i :=
  ⟨_, position_eq active⟩

theorem rate_of_inactive (rates : List α) (inactive : p ∉ t.active) :
    t.rate rates p = .error (.inactivePhase p) := by
  rw [rate, position_of_inactive inactive]
  rfl

theorem rate_map_eq (t : PhaseTable) (rates : List α) (p : Phase) (f : α → α) :
    t.rate (rates.map f) p = f <$> t.rate rates p := by
  cases located : (t.position p : Outcome α Nat) with
  | error fault =>
    rw [rate, rate, located]
    rfl
  | ok i =>
    simp only [rate, located, Outcome.ok_bind, List.getElem?_map]
    cases rates[i]? <;> rfl

variable [Scalar α] {rates : List α}

theorem entry_of_inactive (rates : List α) (inactive : p ∉ t.active) : t.entry rates p = 0 := by
  rw [entry, List.idxOf?_eq_none_iff.2 inactive]

theorem rate_eq (fits : rates.length = t.size) (active : p ∈ t.active) :
    t.rate rates p = .ok (t.entry rates p) := by
  obtain ⟨i, inside, located, -⟩ := exists_position active
  rw [← fits] at inside
  simp only [rate, position, entry, located, Outcome.ok_bind, List.getElem?_eq_getElem inside,
    List.getD_eq_getElem?_getD, Option.getD_some]

theorem rateOrZero_eq (fits : rates.length = t.size) (p : Phase) :
    t.rateOrZero rates p = .ok (t.entry rates p) := by
  rw [rateOrZero]
  by_cases active : p ∈ t.active
  · rw [if_pos (has_iff.2 active), rate_eq fits active]
  · rw [if_neg (mt has_iff.1 active), entry_of_inactive rates active]

theorem total_eq (fits : rates.length = t.size) :
    t.total rates = .ok (Scalar.sum (Phase.canonical.map (t.entry rates))) := by
  rw [total, Outcome.mapM_eq_ok fun p _ => rateOrZero_eq fits p]
  rfl

theorem mapM_rate_eq (fits : rates.length = t.size) {phases : List Phase}
    (active : ∀ p ∈ phases, p ∈ t.active) :
    phases.mapM (t.rate rates) = .ok (phases.map (t.entry rates)) :=
  Outcome.mapM_eq_ok fun p listed => rate_eq fits (active p listed)

theorem zeros_eq (t : PhaseTable) : (t.zeros : List α) = t.active.map fun _ => 0 :=
  List.map_const'.symm

theorem entry_map_active (f : Phase → α) (active : p ∈ t.active) :
    t.entry (t.active.map f) p = f p := by
  obtain ⟨i, inside, located, found⟩ := exists_position active
  have mapped : i < (t.active.map f).length := by rwa [List.length_map]
  simp only [entry, located, List.getD_eq_getElem?_getD, List.getElem?_eq_getElem mapped,
    Option.getD_some, List.getElem_map]
  exact congrArg f found

/-- The entries of an array computed by phase, where nothing is computed for inactive phases. -/
theorem entry_map_active_eq {f : Phase → α} (off : ∀ p, p ∉ t.active → f p = 0) :
    t.entry (t.active.map f) = f := by
  funext p
  by_cases active : p ∈ t.active
  · exact entry_map_active f active
  · rw [entry_of_inactive _ active, off p active]

/-- An array is the list of its entries, in the order of the table. -/
theorem map_entry (fits : rates.length = t.size) : t.active.map (t.entry rates) = rates := by
  apply List.ext_getElem
  · rw [List.length_map, fits]
    rfl
  · intro j _ inside
    have placed : j < t.active.length := by
      rw [fits] at inside
      exact inside
    obtain ⟨i, inside', located, found⟩ := exists_position (List.getElem_mem placed)
    obtain rfl := (List.Nodup.getElem_inj_iff t.distinct).1 found
    simp only [List.getElem_map, entry, located, List.getD_eq_getElem?_getD,
      List.getElem?_eq_getElem inside, Option.getD_some]

end PhaseTable

theorem Grid.entries_eq_line {α : Type} {g : Grid α} {n : Nat} (shape : g.shape = [n]) :
    g.entries = g.line := by
  obtain ⟨_, entries, full⟩ := g
  subst shape
  rfl

/-- A line is determined by its entries. -/
theorem Grid.eq_ofList {α : Type} {g : Grid α} {n : Nat} (shape : g.shape = [n]) :
    g = .ofList g.line := by
  obtain ⟨_, entries, full⟩ := g
  subst shape
  have length : entries.length = n := full.trans (Nat.mul_one n)
  subst length
  rfl

theorem Grid.ofRow_eq {α : Type} {shape : List Nat} {row : List α} (fits : shape = [row.length]) :
    ofRow shape row = .ok (ofList row) := by
  unfold ofRow
  exact if_pos fits

theorem weighted_eq {α : Type} [Scalar α] {coefficients : List α} {rates : Grid α} {n : Nat}
    (long : coefficients.length = n) (fits : rates.shape = [n]) :
    weighted coefficients rates = .ok (Scalar.dot coefficients rates.line) := by
  have extent : Grid.weightedExtent rates.shape = coefficients.length ∧
      rates.entries.length = coefficients.length := by
    rw [rates.full, fits, long]
    exact ⟨rfl, Nat.mul_one n⟩
  rw [weighted, if_pos extent, Grid.entries_eq_line fits]

end WellControl
