import Mathlib.Algebra.BigOperators.Ring.List
import Mathlib.Tactic.Ring
import WellControl.Group.Quantity
import WellControl.Proofs.Exact
import WellControl.Proofs.Phase.Entries
import WellControl.State.Basic

/-! # Amounts that production targets limit

`Grid.produced` is the amount of a rate array that a group's mode looks at.  For the modes that look
at surface rates it does not depend on conditions in the reservoir, and no rates amount to nothing.
Under every mode the quantity of a target is scaled with the rates. -/
set_option autoImplicit false

namespace WellControl

def GroupProductionMode.isSurface : GroupProductionMode → Bool
  | .orat | .wrat | .grat | .lrat => true
  | .none | .resv | .fld => false

/-- The produced amount that a mode looks at, zero where it cannot be read. -/
def Grid.produced (rates : Grid ℚ) (mode : GroupProductionMode) (t : PhaseTable) : ℚ :=
  (productionQuantity mode t [] >>= fun quantity => quantity rates).toOption.getD 0

namespace PhaseTable
variable {t : PhaseTable} {p : Phase}

theorem rate_map {rates : List ℚ} {x : ℚ} (found : t.rate rates p = .ok x) (f : ℚ → ℚ) :
    t.rate (rates.map f) p = .ok (f x) := by
  rw [rate_map_eq, found]
  rfl

theorem rateOrZero_scale {rates : List ℚ} {x : ℚ} (found : t.rateOrZero rates p = .ok x)
    (factor : ℚ) : t.rateOrZero (rates.map (· * factor)) p = .ok (x * factor) := by
  unfold rateOrZero at found ⊢
  by_cases has : t.has p = true
  · rw [if_pos has] at found ⊢
    exact rate_map found (· * factor)
  · rw [if_neg has] at found ⊢
    cases found
    rw [zero_mul]

theorem rateOrZero_zeros (t : PhaseTable) (p : Phase) : t.rateOrZero t.zeros p = .ok (0 : ℚ) := by
  unfold rateOrZero
  split
  · rename_i has
    obtain ⟨i, located⟩ := Option.isSome_iff_exists.1 (List.isSome_idxOf?.2 (of_decide_eq_true has))
    obtain ⟨inside, _⟩ := List.idxOf?_eq_some_iff.1 located
    have entry : (t.zeros : List ℚ)[i]? = some 0 := List.getElem?_replicate_of_lt inside
    simp only [rate, position, located, Outcome.ok_bind, entry]
  · rfl

end PhaseTable

/-! ## Quantities are scaled with the rates -/

theorem weighted_scale {coefficients : List ℚ} {rates : Grid ℚ} {x : ℚ}
    (read : weighted coefficients rates = .ok x) (factor : ℚ) :
    weighted coefficients (rates.map (· * factor)) = .ok (x * factor) := by
  unfold weighted at read ⊢
  split at read
  · rename_i aligned
    cases read
    have products : List.zipWith (· * ·) coefficients (rates.entries.map (· * factor)) =
        (List.zipWith (· * ·) coefficients rates.entries).map (· * factor) := by
      simp only [List.zipWith_map_right, List.map_zipWith, mul_assoc]
    have summed :=
      List.sum_map_mul_right (List.zipWith (· * ·) coefficients rates.entries) id factor
    rw [if_pos (by simpa [Grid.map] using aligned), Scalar.dot_eq, Scalar.dot_eq]
    simp only [Grid.map, products]
    rw [List.map_id] at summed
    exact congrArg _ summed
  · cases read

theorem productionQuantity_scale {mode : GroupProductionMode} {t : PhaseTable}
    {coefficients : List ℚ} {quantity : RateQuantity ℚ}
    (measured : productionQuantity mode t coefficients = .ok quantity) {rates : Grid ℚ} {x : ℚ}
    (read : quantity rates = .ok x) (factor : ℚ) :
    quantity (rates.map (· * factor)) = .ok (x * factor) := by
  have single : ∀ p : Phase, (do return -(← t.rateOrZero rates.line p) : Outcome ℚ ℚ) = .ok x →
      (do return -(← t.rateOrZero (rates.map (· * factor)).line p) : Outcome ℚ ℚ) =
        .ok (x * factor) := by
    intro p read
    obtain ⟨y, found, result⟩ := Outcome.bind_eq_ok.1 read
    cases result
    rw [Grid.line_map, PhaseTable.rateOrZero_scale found factor, Outcome.ok_bind, neg_mul]
    rfl
  cases mode with
  | orat =>
    cases measured
    exact single .oil read
  | wrat =>
    cases measured
    exact single .water read
  | grat =>
    cases measured
    exact single .gas read
  | lrat =>
    cases measured
    obtain ⟨oil, oilFound, read⟩ := Outcome.bind_eq_ok.1 read
    obtain ⟨water, waterFound, result⟩ := Outcome.bind_eq_ok.1 read
    cases result
    simp only [Grid.line_map, PhaseTable.rateOrZero_scale oilFound factor,
      PhaseTable.rateOrZero_scale waterFound factor, Outcome.ok_bind, Outcome.pure_eq_ok,
      Except.ok.injEq]
    ring
  | resv =>
    cases measured
    obtain ⟨y, found, result⟩ := Outcome.bind_eq_ok.1 read
    cases result
    simp only [weighted_scale found factor, Outcome.ok_bind, Outcome.pure_eq_ok, neg_mul]
  | none => cases measured
  | fld => cases measured

theorem injectionQuantity_scale {mode : GroupInjectionMode} {p : Phase} {t : PhaseTable}
    {coefficients : List ℚ} {quantity : RateQuantity ℚ}
    (measured : injectionQuantity mode p t coefficients = .ok quantity) {rates : Grid ℚ} {x : ℚ}
    (read : quantity rates = .ok x) (factor : ℚ) :
    quantity (rates.map (· * factor)) = .ok (x * factor) := by
  obtain ⟨_, _, measured⟩ := Outcome.bind_eq_ok.1 measured
  cases mode with
  | rate =>
    cases measured
    change t.rate rates.line p = .ok x at read
    change t.rate (rates.map (· * factor)).line p = .ok (x * factor)
    rw [Grid.line_map]
    exact PhaseTable.rate_map read (· * factor)
  | resv =>
    cases measured
    obtain ⟨rate, found, read⟩ := Outcome.bind_eq_ok.1 read
    obtain ⟨coefficient, given, result⟩ := Outcome.bind_eq_ok.1 read
    cases result
    simp only [Grid.line_map, PhaseTable.rate_map found (· * factor), given, Outcome.ok_bind,
      Outcome.pure_eq_ok, mul_right_comm]
  | none => cases measured
  | fld => cases measured

/-- The quantity of a surface mode: the same under all conditions, linear, zero where nothing
flows. -/
theorem exists_surfaceQuantity {mode : GroupProductionMode} (surface : mode.isSurface = true)
    (t : PhaseTable) : ∃ quantity : RateQuantity ℚ,
      (∀ coefficients, productionQuantity mode t coefficients = .ok quantity) ∧
      (∀ rates x factor, quantity rates = .ok x →
        quantity (rates.map (· * factor)) = .ok (x * factor)) ∧
      quantity (.ofList t.zeros) = .ok 0 := by
  have still : ∀ p : Phase,
      (do return -(← t.rateOrZero (Grid.ofList t.zeros).line p) : Outcome ℚ ℚ) = .ok 0 := by
    intro p
    rw [Grid.line_ofList, t.rateOrZero_zeros, Outcome.ok_bind, neg_zero]
    rfl
  have scaled {quantity : RateQuantity ℚ} (measured : productionQuantity mode t [] = .ok quantity) :
      ∀ rates x factor, quantity rates = .ok x →
        quantity (rates.map (· * factor)) = .ok (x * factor) :=
    fun _ _ factor read => productionQuantity_scale measured read factor
  cases mode with
  | orat => exact ⟨_, fun _ => rfl, scaled rfl, still .oil⟩
  | wrat => exact ⟨_, fun _ => rfl, scaled rfl, still .water⟩
  | grat => exact ⟨_, fun _ => rfl, scaled rfl, still .gas⟩
  | lrat =>
    refine ⟨_, fun _ => rfl, scaled rfl, ?_⟩
    simp only [Grid.line_ofList, t.rateOrZero_zeros, Outcome.ok_bind, Outcome.pure_eq_ok,
      add_zero, neg_zero]
  | none => cases surface
  | resv => cases surface
  | fld => cases surface

namespace Grid
variable {mode : GroupProductionMode} {t : PhaseTable} {quantity : RateQuantity ℚ}

theorem produced_eq (measured : productionQuantity mode t [] = .ok quantity) {rates : Grid ℚ}
    {x : ℚ} (read : quantity rates = .ok x) : rates.produced mode t = x := by
  rw [produced, measured, Outcome.ok_bind, read]
  rfl

/-- A positive amount was read. -/
theorem quantity_eq_produced (measured : productionQuantity mode t [] = .ok quantity)
    {rates : Grid ℚ} (positive : 0 < rates.produced mode t) :
    quantity rates = .ok (rates.produced mode t) := by
  rw [produced, measured, Outcome.ok_bind] at positive ⊢
  cases read : quantity rates with
  | error f =>
    rw [read] at positive
    exact absurd positive (lt_irrefl 0)
  | ok x => rfl

theorem produced_map (surface : mode.isSurface = true) {rates : Grid ℚ}
    (positive : 0 < rates.produced mode t) (factor : ℚ) :
    (rates.map (· * factor)).produced mode t = rates.produced mode t * factor := by
  obtain ⟨quantity, measured, linear, _⟩ := exists_surfaceQuantity surface t
  exact produced_eq (measured [])
    (linear rates _ factor (quantity_eq_produced (measured []) positive))

end Grid
end WellControl
