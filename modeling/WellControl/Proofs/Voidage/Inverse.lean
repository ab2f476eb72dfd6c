import Mathlib.Tactic.FieldSimp
import WellControl.Proofs.Division
import WellControl.Proofs.Voidage

/-! # Surface rates from reservoir rates

Brought to the surface, a reservoir volume of oil gives off the gas dissolved in it, and one of gas
drops the oil vaporized in it.  This balance (`FormationVolume.phaseSurface`) and the conversion to
reservoir rates undo one another, because the product of the two ratios of a region stays below
one.  So the conversion is linear and one to one (`FormationVolume.Inverts`). -/
set_option autoImplicit false

namespace WellControl

namespace FormationVolume
variable {c : FormationVolume ℚ} {r : Region ℚ} {rates volumes : List ℚ} {p : Phase} {fip pvt : Int}

/-- The surface rate of a phase that reservoir rates come to. -/
def phaseSurface (c : FormationVolume ℚ) (r : Region ℚ) (volumes : List ℚ) : Phase → ℚ
  | .water => c.table.entry volumes .water / r.waterFactor.val
  | .oil =>
    c.table.entry volumes .oil / r.oilFactor.val +
      c.vaporized r * c.table.entry volumes .gas / r.gasFactor.val
  | .gas =>
    c.table.entry volumes .gas / r.gasFactor.val +
      c.dissolved r * c.table.entry volumes .oil / r.oilFactor.val

theorem phaseSurface_of_inactive (inactive : p ∉ c.table.active) :
    c.phaseSurface r volumes p = 0 := by
  have none := PhaseTable.entry_of_inactive volumes inactive
  cases p with
  | water => rw [phaseSurface, none, zero_div]
  | oil =>
    obtain ⟨-, vaporized⟩ := exchange_of_inactive (r := r) (.inl rfl) inactive
    rw [phaseSurface, none, vaporized, zero_mul, zero_div, zero_div, add_zero]
  | gas =>
    obtain ⟨dissolved, -⟩ := exchange_of_inactive (r := r) (.inr rfl) inactive
    rw [phaseSurface, none, dissolved, zero_mul, zero_div, zero_div, add_zero]

theorem determinant_pos (c : FormationVolume ℚ) (r : Region ℚ) : 0 < c.determinant r := by
  have separable := r.separable
  unfold determinant dissolved vaporized
  split <;> linarith

/-! ## Round trips -/

section Exchange
variable {own other factor factor' gives takes det : ℚ}

/-- What one phase takes up of the other and what it gives to it come out even, converted one
way. -/
theorem exchange_undone (regular : det ≠ 0) (determined : det = 1 - gives * takes)
    (sized : factor ≠ 0) (sized' : factor' ≠ 0) :
    (own - takes * other) * factor / det / factor +
      takes * ((other - gives * own) * factor' / det) / factor' = own := by
  field_simp
  rw [determined]
  ring

/-- They come out even converted the other way, too. -/
theorem exchange_redone (regular : det ≠ 0) (determined : det = 1 - gives * takes)
    (sized : factor ≠ 0) :
    (own / factor + takes * other / factor' - takes * (other / factor' + gives * own / factor)) *
      factor / det = own := by
  field_simp
  rw [determined]
  ring

end Exchange

theorem phaseSurface_phaseVoidage (c : FormationVolume ℚ) (r : Region ℚ) (rates : List ℚ)
    (p : Phase) :
    c.phaseSurface r (c.table.active.map (c.phaseVoidage r rates)) p = c.table.entry rates p := by
  have volumes := PhaseTable.entry_map_active_eq fun p => @phaseVoidage_of_inactive c r rates p
  have regular := c.determinant_ne_zero r
  have oil := r.oilFactor.2.ne'
  have gas := r.gasFactor.2.ne'
  cases p with
  | water =>
    simp only [phaseSurface, volumes, phaseVoidage]
    exact mul_div_cancel_right₀ _ r.waterFactor.2.ne'
  | oil =>
    simp only [phaseSurface, volumes, phaseVoidage]
    exact exchange_undone regular rfl oil gas
  | gas =>
    simp only [phaseSurface, volumes, phaseVoidage]
    exact exchange_undone regular (by rw [determinant, mul_comm]) gas oil

theorem phaseVoidage_phaseSurface (c : FormationVolume ℚ) (r : Region ℚ) (volumes : List ℚ)
    (p : Phase) :
    c.phaseVoidage r (c.table.active.map (c.phaseSurface r volumes)) p =
      c.table.entry volumes p := by
  have surface :=
    PhaseTable.entry_map_active_eq fun p => @phaseSurface_of_inactive c r volumes p
  have regular := c.determinant_ne_zero r
  cases p with
  | water =>
    simp only [phaseVoidage, surface, phaseSurface]
    exact div_mul_cancel₀ _ r.waterFactor.2.ne'
  | oil =>
    simp only [phaseVoidage, surface, phaseSurface]
    exact exchange_redone regular rfl r.oilFactor.2.ne'
  | gas =>
    simp only [phaseVoidage, surface, phaseSurface]
    exact exchange_redone regular (by rw [determinant, mul_comm]) r.gasFactor.2.ne'

/-! ## Combinations -/

/-- So much of one array and so much of another. -/
def mixed (a b : ℚ) (xs ys : List ℚ) : List ℚ := List.zipWith (fun x y => a * x + b * y) xs ys

theorem entry_mixed {t : PhaseTable} {xs ys : List ℚ} (fits : xs.length = t.size)
    (fits' : ys.length = t.size) (a b : ℚ) :
    t.entry (mixed a b xs ys) = fun p => a * t.entry xs p + b * t.entry ys p := by
  rw [mixed, PhaseTable.zipWith_eq fits fits']
  apply PhaseTable.entry_map_active_eq
  intro p inactive
  rw [PhaseTable.entry_of_inactive xs inactive, PhaseTable.entry_of_inactive ys inactive,
    mul_zero, mul_zero, add_zero]

theorem phaseVoidage_mixed {xs ys : List ℚ} (fits : xs.length = c.table.size)
    (fits' : ys.length = c.table.size) (a b : ℚ) (p : Phase) :
    c.phaseVoidage r (mixed a b xs ys) p =
      a * c.phaseVoidage r xs p + b * c.phaseVoidage r ys p := by
  cases p <;> simp only [phaseVoidage, entry_mixed fits fits'] <;> ring

/-! ## The conversion -/

/-- Only rates that fit are converted. -/
theorem shape_of_voidage {rates : Grid ℚ} (converted : c.voidage fip pvt rates = .ok volumes) :
    rates.shape = [c.table.size] := by
  by_contra unfit
  rw [voidage, if_pos unfit] at converted
  cases converted

structure Inverts (c : FormationVolume ℚ) (fip pvt : Int) (r : Region ℚ) : Prop where
  regular : 0 < 1 - c.dissolved r * c.vaporized r
  /-- The surface rates of active phases are recovered from the reservoir rates. -/
  recovered : ∀ rates : Grid ℚ, rates.shape = [c.table.size] → ∃ volumes,
    c.voidage fip pvt rates = .ok volumes ∧
      ∀ p ∈ c.table.active, c.table.entry rates.line p = c.phaseSurface r volumes p
  /-- All reservoir rates can be reached. -/
  reached : ∀ volumes, volumes.length = c.table.size →
    c.voidage fip pvt (.ofList (c.table.active.map (c.phaseSurface r volumes))) = .ok volumes
  linear : ∀ a b xs ys, xs.length = c.table.size → ys.length = c.table.size → ∃ us vs,
    c.voidage fip pvt (.ofList xs) = .ok us ∧ c.voidage fip pvt (.ofList ys) = .ok vs ∧
      c.voidage fip pvt (.ofList (mixed a b xs ys)) = .ok (mixed a b us vs)
  injective : ∀ g h volumes, c.voidage fip pvt g = .ok volumes →
    c.voidage fip pvt h = .ok volumes → g = h

/-- Where a region is defined, rates of the surface and of the reservoir determine one another. -/
theorem inverts_of_region (defined : c.region fip pvt = .ok r) : c.Inverts fip pvt r where
  regular := c.determinant_pos r
  recovered rates fits :=
    ⟨_, voidage_of_defined defined fits, fun p _ => (c.phaseSurface_phaseVoidage r _ p).symm⟩
  reached volumes fits := by
    rw [voidage_of_defined defined (congrArg (fun n => [n]) (List.length_map _)),
      Grid.line_ofList, funext (c.phaseVoidage_phaseSurface r volumes), PhaseTable.map_entry fits]
  linear a b xs ys fits fits' := by
    have converts {zs : List ℚ} (fits : zs.length = c.table.size) :
        c.voidage fip pvt (.ofList zs) = .ok (c.table.active.map (c.phaseVoidage r zs)) :=
      voidage_of_defined defined (congrArg (fun n => [n]) fits)
    have fitsMixed : (mixed a b xs ys).length = c.table.size := by
      rw [mixed, PhaseTable.zipWith_eq fits fits']
      exact List.length_map _
    refine ⟨_, _, converts fits, converts fits', ?_⟩
    rw [converts fitsMixed, funext (phaseVoidage_mixed fits fits' a b), mixed,
      List.zipWith_map, List.zipWith_self]
  injective g h volumes first second := by
    -- Both sides are what the volumes come to at the surface.
    have surface {rates : Grid ℚ} (converted : c.voidage fip pvt rates = .ok volumes) :
        rates = .ofList (c.table.active.map (c.phaseSurface r volumes)) := by
      have fits := shape_of_voidage converted
      rw [voidage_of_defined defined fits] at converted
      cases converted
      rw [funext (c.phaseSurface_phaseVoidage r _), PhaseTable.map_entry (Grid.length_line fits)]
      exact Grid.eq_ofList fits
    rw [surface first, surface second]

/-- Where gas dissolves in oil and oil vaporizes into gas, with the phases in another order. -/
theorem exchanging_inverts :
    let c := FormationVolume.exchanging .gasFirst
    ∃ r, c.region 0 0 = .ok r ∧ c.dissolved r * c.vaporized r = 1 / 20 ∧
      c.voidage 0 0 (.ofList [2, -1, 3]) = .ok [25 / 38, -1, 78 / 19] ∧ c.Inverts 0 0 r :=
  ⟨_, rfl, by decide +kernel, by decide +kernel, inverts_of_region rfl⟩

end FormationVolume
end WellControl
