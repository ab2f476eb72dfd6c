import Mathlib.Tactic.Ring
import WellControl.Proofs.Control.Faults
import WellControl.Proofs.Pass.Reordering

/-! # Agreement of reservoir rates

A total reservoir rate is come by in several ways: from the reservoir rates of the phases, where oil
and gas exchange volumes; as a product of the surface rates with coefficients, for a group's target;
and, of an injected phase, as its rate times its own coefficient.  Whichever phases a table lists,
and in whatever order, they all come to the same (`FormationVolume.Agree`). -/
set_option autoImplicit false

namespace WellControl

/-- The total of an array is the sum of its entries. -/
theorem PhaseTable.total_eq_sum {t : PhaseTable} {rates : List ℚ} (fits : rates.length = t.size) :
    t.total rates = .ok (Scalar.sum rates) := by
  rw [total_eq fits, ← t.sum_map_active fun p => entry_of_inactive rates, map_entry fits]

theorem PhaseTable.dot_map_neg (t : PhaseTable) (coefficient rate : Phase → ℚ) :
    Scalar.dot (t.active.map coefficient) (t.active.map fun p => -rate p) =
      -Scalar.dot (t.active.map coefficient) (t.active.map rate) := by
  simp only [Scalar.dot_eq, List.zipWith_map, List.zipWith_self, List.sum_neg, List.map_map,
    Function.comp_def, mul_neg]

namespace FormationVolume
variable {c : FormationVolume ℚ} {r : Region ℚ} {rates : List ℚ} {p : Phase} {fip pvt : Int}

/-! ## One region -/

/-- Over all phases the exchange between oil and gas may be counted by where a volume comes from
instead of by where it goes. -/
theorem sum_phaseVoidage_canonical :
    Scalar.sum (Phase.canonical.map (c.phaseVoidage r rates)) =
      Scalar.sum (Phase.canonical.map fun p =>
        c.phaseCoefficient r p * c.table.entry rates p) := by
  simp only [Scalar.sum_eq, Phase.canonical, List.map_cons, List.map_nil, List.sum_cons,
    List.sum_nil, phaseVoidage, phaseCoefficient]
  ring

theorem dot_phaseCoefficient (fits : rates.length = c.table.size) :
    Scalar.dot (c.table.active.map (c.phaseCoefficient r)) rates =
      Scalar.sum (c.table.active.map fun p => c.phaseCoefficient r p * c.table.entry rates p) := by
  rw [Scalar.dot_eq, Scalar.sum_eq, PhaseTable.zipWith_eq (List.length_map _) fits]
  refine congrArg List.sum (List.map_congr_left fun p active => ?_)
  rw [PhaseTable.entry_map_active _ active]

theorem sum_phaseVoidage (fits : rates.length = c.table.size) :
    Scalar.sum (c.table.active.map (c.phaseVoidage r rates)) =
      Scalar.dot (c.table.active.map (c.phaseCoefficient r)) rates := by
  -- The terms of oil and of gas agree only in their sum, so all phases are summed over first.
  rw [dot_phaseCoefficient fits,
    c.table.sum_map_active fun p inactive => phaseVoidage_of_inactive inactive,
    sum_phaseVoidage_canonical, c.table.sum_map_active]
  intro p inactive
  rw [PhaseTable.entry_of_inactive rates inactive, mul_zero]

/-- Of a single phase that flows, one product is left. -/
theorem dot_phaseCoefficient_of_single (fits : rates.length = c.table.size)
    (active : p ∈ c.table.active) (single : ∀ other, other ≠ p → c.table.entry rates other = 0) :
    Scalar.dot (c.table.active.map (c.phaseCoefficient r)) rates =
      c.table.entry rates p * c.phaseCoefficient r p := by
  rw [dot_phaseCoefficient fits, Scalar.sum_eq, List.sum_map_eq_nsmul_single p]
  · rw [List.count_eq_one_of_mem c.table.distinct active, one_nsmul, mul_comm]
  · intro other different _
    rw [single other different, mul_zero]

/-! ## All ways to a total -/

structure Converts (c : FormationVolume ℚ) (fip pvt : Int) (e : Evaluator ℚ)
    (constants : Constants ℚ) : Prop where
  table : e.table = c.table
  converter : e.converter = c.converter
  fip : constants.fipRegion = fip
  pvt : e.well.header.pvtRegion = pvt

/-- All that is said of reservoir volumes at two regions is what their coefficients say. -/
structure Agree (c : FormationVolume ℚ) (fip pvt : Int) (coefficients : List ℚ) : Prop where
  computed : c.coefficients fip pvt = .ok coefficients
  total : ∀ rates : Grid ℚ, rates.shape = [c.table.size] → ∃ voidage,
    c.voidage fip pvt rates = .ok voidage ∧
      Scalar.sum voidage = Scalar.dot coefficients rates.line
  /-- Once the rates of a producer are converted, its group's target is on the volume that its own
  limit is on. -/
  produced : ∀ e constants, c.Converts fip pvt e constants → ∀ w, e.well = .producer w →
    ∀ s : WellState ℚ, s.surfaceRates.shape = [c.table.size] →
      s.reservoirRates.shape = [c.table.size] → ∃ s' total,
        e.withReservoirRates constants s = .ok s' ∧ e.table.total s'.reservoir = .ok total ∧
        productionQuantity .resv e.table coefficients >>= (· s'.surfaceRates) = .ok (-total) ∧
        w.exceeds e.table e.converter constants s' .resv =
          do return decide ((← w.reservoirLimit e.table e.converter constants) < -total)
  /-- The limit of a producer that follows its history is what a target would count of the rates
  that were observed. -/
  observed : ∀ e constants, c.Converts fip pvt e constants → ∀ w, e.well = .producer w →
    w.controls.prediction = false → ∃ limit,
      w.reservoirLimit e.table e.converter constants = .ok limit ∧
      productionQuantity .resv e.table coefficients >>=
        (· (.ofList (e.table.active.map fun p => -w.observed p))) = .ok limit
  /-- The target of an injector that takes in nothing but its phase is on the volume that its own
  limit is on. -/
  injected : ∀ e constants, c.Converts fip pvt e constants → ∀ w p, e.well = .injector w →
    w.phase = .ok p → p ∈ c.table.active →
    ∀ s : WellState ℚ, s.surfaceRates.shape = [c.table.size] →
      s.reservoirRates.shape = [c.table.size] →
      (∀ other, other ≠ p → c.table.entry s.surface other = 0) → ∃ s' total,
        e.withReservoirRates constants s = .ok s' ∧ e.table.total s'.reservoir = .ok total ∧
        injectionQuantity .resv p e.table coefficients >>= (· s'.surfaceRates) = .ok total ∧
        w.exceeds e.table s' .resv = .ok (decide (w.controls.reservoirRate.val < total))

section Region
variable {e : Evaluator ℚ} {constants : Constants ℚ} {s : WellState ℚ}

/-- What a target on reservoir volumes is on. -/
theorem productionQuantity_resv {coefficients : List ℚ} {rates : Grid ℚ}
    (long : coefficients.length = c.table.size) (fits : rates.shape = [c.table.size]) :
    productionQuantity .resv c.table coefficients >>= (· rates) =
      .ok (-Scalar.dot coefficients rates.line) := by
  simp only [productionQuantity, Outcome.ok_bind, weighted_eq long fits]
  rfl

theorem injectionQuantity_resv {coefficients : List ℚ} {rates : Grid ℚ}
    (long : coefficients.length = c.table.size) (fits : rates.shape = [c.table.size])
    (active : p ∈ c.table.active) :
    injectionQuantity .resv p c.table coefficients >>= (· rates) =
      .ok (c.table.entry rates.line p * c.table.entry coefficients p) := by
  obtain ⟨i, positioned⟩ := PhaseTable.position_of_active (α := ℚ) active
  simp only [injectionQuantity, positioned, Outcome.ok_bind, Outcome.pure_eq_ok,
    PhaseTable.rate_eq (Grid.length_line fits) active, PhaseTable.rate_eq long active]

theorem voidage_of_defined {rates : Grid ℚ} (defined : c.region fip pvt = .ok r)
    (fits : rates.shape = [c.table.size]) :
    c.voidage fip pvt rates = .ok (c.table.active.map (c.phaseVoidage r rates.line)) := by
  rw [voidage_eq fits, defined]
  rfl

theorem withReservoirRates_eq (converts : c.Converts fip pvt e constants)
    (defined : c.region fip pvt = .ok r) (surface : s.surfaceRates.shape = [c.table.size])
    (reservoir : s.reservoirRates.shape = [c.table.size]) :
    e.withReservoirRates constants s = .ok { s with
      reservoirRates := .ofList (c.table.active.map (c.phaseVoidage r s.surfaceRates.line)) } := by
  obtain ⟨-, converter, rfl, rfl⟩ := converts
  have shape : s.reservoirRates.shape =
      [(c.table.active.map (c.phaseVoidage r s.surfaceRates.line)).length] := by
    rw [List.length_map]
    exact reservoir
  rw [Evaluator.withReservoirRates, converter]
  simp only [FormationVolume.converter, voidage_of_defined defined surface, Outcome.ok_bind,
    Grid.ofRow_eq shape]
  rfl

/-- Computed reservoir rates come to what the coefficients make of the surface rates. -/
theorem total_withReservoirRates (converts : c.Converts fip pvt e constants)
    (defined : c.region fip pvt = .ok r) (surface : s.surfaceRates.shape = [c.table.size])
    (reservoir : s.reservoirRates.shape = [c.table.size]) :
    ∃ s', e.withReservoirRates constants s = .ok s' ∧ s'.surfaceRates = s.surfaceRates ∧
      e.table.total s'.reservoir =
        .ok (Scalar.dot (c.table.active.map (c.phaseCoefficient r)) s.surfaceRates.line) := by
  refine ⟨_, withReservoirRates_eq converts defined surface reservoir, rfl, ?_⟩
  rw [converts.table, ← sum_phaseVoidage (Grid.length_line surface)]
  exact PhaseTable.total_eq_sum (List.length_map _)

end Region

theorem agree_of_region (defined : c.region fip pvt = .ok r) :
    c.Agree fip pvt (c.table.active.map (c.phaseCoefficient r)) where
  computed := by
    rw [coefficients, defined]
    rfl
  total rates fits :=
    ⟨_, voidage_of_defined defined fits, sum_phaseVoidage (Grid.length_line fits)⟩
  produced e constants converts w well s surface reservoir := by
    obtain ⟨s', converted, kept, total⟩ :=
      total_withReservoirRates converts defined surface reservoir
    refine ⟨s', _, converted, total, ?_, ?_⟩
    · rw [kept, converts.table, productionQuantity_resv (List.length_map _) surface]
    · simp only [Producer.exceeds, total, Outcome.ok_bind]
  observed e constants converts w well history := by
    obtain ⟨table, converter, rfl, rfl⟩ := converts
    have fits (rate : Phase → ℚ) :
        (Grid.ofList (c.table.active.map rate)).shape = [c.table.size] :=
      congrArg (fun n => [n]) (List.length_map _)
    have region : w.pvtRegion = e.well.header.pvtRegion := by
      rw [well]
      rfl
    refine ⟨Scalar.dot (c.table.active.map (c.phaseCoefficient r)) (c.table.active.map w.observed),
      ?_, ?_⟩
    · rw [Producer.reservoirLimit, history, converter, table, region,
        ← sum_phaseVoidage (List.length_map _)]
      simp only [FormationVolume.converter, voidage_of_defined defined (fits _), Outcome.ok_bind]
      rfl
    · rw [table, productionQuantity_resv (List.length_map _) (fits _), Grid.line_ofList,
        PhaseTable.dot_map_neg, neg_neg]
  injected e constants converts w p well phase active s surface reservoir single := by
    obtain ⟨s', converted, kept, total⟩ :=
      total_withReservoirRates converts defined surface reservoir
    rw [dot_phaseCoefficient_of_single (Grid.length_line surface) active single] at total
    refine ⟨s', _, converted, total, ?_, ?_⟩
    · rw [kept, converts.table, injectionQuantity_resv (List.length_map _) surface active,
        PhaseTable.entry_map_active _ active]
    · simp only [Injector.exceeds, total, Outcome.ok_bind]
      rfl

/-- Phases in another order, and an exchange between oil and gas in both directions. -/
theorem exchanging_agree :
    let c := FormationVolume.exchanging .gasFirst
    c.Converts 0 0 (.wet .gasFirst) .standard ∧ ∃ r, c.region 0 0 = .ok r ∧
      c.table.active.map (c.phaseCoefficient r) = [4 / 19, 1, 55 / 38] ∧
      c.Agree 0 0 (c.table.active.map (c.phaseCoefficient r)) :=
  ⟨⟨rfl, rfl, rfl, rfl⟩, _, rfl, by decide +kernel, agree_of_region rfl⟩

end FormationVolume
end WellControl
