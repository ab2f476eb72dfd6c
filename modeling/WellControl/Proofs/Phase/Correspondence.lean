import Mathlib.Algebra.BigOperators.Group.Finset.Basic
import WellControl.Group.Quantity
import WellControl.Proofs.Exact
import WellControl.Proofs.Phase.Entries
import WellControl.Rates
import WellControl.Voidage

/-! # Rates over two phase tables

Two phase tables may list phases in different orders, or one of them a phase that the other does
not.  An array for the one has a counterpart for the other, which holds the same rate for each phase
(`PhaseTable.SameRates`), so that a phase listed by one table only does not flow.  What is read by
phase is then the same, and so are sums and products in exact arithmetic. -/
set_option autoImplicit false

namespace WellControl
variable {t t' : PhaseTable}

namespace PhaseTable

structure SameRates (t t' : PhaseTable) (xs ys : List ℚ) : Prop where
  fits : xs.length = t.size
  fits' : ys.length = t'.size
  entry : t'.entry ys = t.entry xs

/-- Two arrays hold one coefficient for each active phase, and the same for a phase that is active
in both tables. -/
structure SameCoefficients (t t' : PhaseTable) (cs cs' : List ℚ) : Prop where
  fits : cs.length = t.size
  fits' : cs'.length = t'.size
  entry : ∀ p, p ∈ t.active → p ∈ t'.active → t'.entry cs' p = t.entry cs p

section Entries
variable {xs ys : List ℚ}

/-- What is zero for inactive phases may be added up over all phases. -/
theorem sum_map_active (t : PhaseTable) {f : Phase → ℚ} (off : ∀ p, p ∉ t.active → f p = 0) :
    Scalar.sum (t.active.map f) = Scalar.sum (Phase.canonical.map f) := by
  rw [Scalar.sum_eq, Scalar.sum_eq, ← List.sum_toFinset f t.distinct,
    ← List.sum_toFinset f Phase.canonical_nodup]
  apply Finset.sum_subset
  · intro p _
    exact List.mem_toFinset.2 p.mem_canonical
  · intro p _ inactive
    exact off p (mt List.mem_toFinset.2 inactive)

theorem sum_eq_sum_entry (fits : xs.length = t.size) :
    Scalar.sum xs = Scalar.sum (Phase.canonical.map (t.entry xs)) := by
  rw [← t.sum_map_active fun p => entry_of_inactive xs, map_entry fits]

/-- Combining two arrays entry by entry is combining their entries for each phase. -/
theorem zipWith_eq (fits : xs.length = t.size) (fits' : ys.length = t.size) (f : ℚ → ℚ → ℚ) :
    List.zipWith f xs ys = t.active.map fun p => f (t.entry xs p) (t.entry ys p) := by
  conv_lhs => rw [← map_entry fits, ← map_entry fits', List.zipWith_map, List.zipWith_self]

theorem entry_map (fits : xs.length = t.size) {f : ℚ → ℚ} (zero : f 0 = 0) :
    t.entry (xs.map f) = fun p => f (t.entry xs p) := by
  have off : ∀ p, p ∉ t.active → f (t.entry xs p) = 0 := by
    intro p inactive
    rw [entry_of_inactive xs inactive, zero]
  rw [← entry_map_active_eq off]
  conv_lhs => rw [← map_entry fits, List.map_map]
  rfl

theorem entry_zipWith (fits : xs.length = t.size) (fits' : ys.length = t.size) {f : ℚ → ℚ → ℚ}
    (zero : f 0 0 = 0) :
    t.entry (List.zipWith f xs ys) = fun p => f (t.entry xs p) (t.entry ys p) := by
  have off : ∀ p, p ∉ t.active → f (t.entry xs p) (t.entry ys p) = 0 := by
    intro p inactive
    rw [entry_of_inactive xs inactive, entry_of_inactive ys inactive, zero]
  rw [zipWith_eq fits fits', entry_map_active_eq off]

theorem entry_zeros (t : PhaseTable) : t.entry (t.zeros : List ℚ) = fun _ => 0 := by
  rw [zeros_eq, entry_map_active_eq fun _ _ => rfl]

theorem position_alike {p : Phase} (listed : p ∈ t.active ↔ p ∈ t'.active) :
    Outcome.Alike (fun _ _ => True) (t.position p : Outcome ℚ Nat) (t'.position p) := by
  by_cases active : p ∈ t.active
  · obtain ⟨i, here⟩ := position_of_active (α := ℚ) active
    obtain ⟨j, there⟩ := position_of_active (α := ℚ) (listed.1 active)
    rw [here, there]
    exact .ok trivial
  · rw [position_of_inactive active, position_of_inactive (mt listed.2 active)]
    exact .error _

end Entries

theorem sameRates_zeros (t t' : PhaseTable) : SameRates t t' t.zeros t'.zeros :=
  ⟨List.length_replicate, List.length_replicate, by rw [entry_zeros, entry_zeros]⟩

/-- Rates of phases make an array for each table, if a phase that only one of them lists does not
flow. -/
theorem sameRates_map_active {f : Phase → ℚ}
    (flowing : ∀ p, f p ≠ 0 → (p ∈ t.active ↔ p ∈ t'.active)) :
    SameRates t t' (t.active.map f) (t'.active.map f) := by
  refine ⟨List.length_map _, List.length_map _, funext fun p => ?_⟩
  have entries (u : PhaseTable) :
      u.entry (u.active.map f) p = if p ∈ u.active then f p else 0 := by
    split
    · next active => exact entry_map_active f active
    · next inactive => exact entry_of_inactive _ inactive
  rw [entries, entries]
  by_cases none : f p = 0
  · rw [none, ite_self, ite_self]
  · simp only [flowing p none]

theorem SameCoefficients.rate_eq {cs cs' : List ℚ} (same : SameCoefficients t t' cs cs') {p : Phase}
    (listed : p ∈ t.active ↔ p ∈ t'.active) : t'.rate cs' p = t.rate cs p := by
  by_cases active : p ∈ t.active
  · rw [PhaseTable.rate_eq same.fits active, PhaseTable.rate_eq same.fits' (listed.1 active),
      same.entry p active (listed.1 active)]
  · rw [rate_of_inactive _ active, rate_of_inactive _ (mt listed.2 active)]

namespace SameRates
variable {xs ys us vs cs cs' : List ℚ} {p : Phase}

theorem active_of_entry (same : SameRates t t' xs ys) (flows : t.entry xs p ≠ 0) :
    p ∈ t.active ∧ p ∈ t'.active := by
  constructor
  · exact not_imp_comm.1 (entry_of_inactive xs) flows
  · rw [← same.entry] at flows
    exact not_imp_comm.1 (entry_of_inactive ys) flows

theorem rate_eq (same : SameRates t t' xs ys) (listed : p ∈ t.active ↔ p ∈ t'.active) :
    t'.rate ys p = t.rate xs p :=
  SameCoefficients.rate_eq ⟨same.fits, same.fits', fun _ _ _ => by rw [same.entry]⟩ listed

theorem rateOrZero (same : SameRates t t' xs ys) : t'.rateOrZero ys = t.rateOrZero xs := by
  funext p
  rw [rateOrZero_eq same.fits, rateOrZero_eq same.fits', same.entry]

theorem total (same : SameRates t t' xs ys) : t'.total ys = t.total xs := by
  rw [PhaseTable.total, PhaseTable.total, same.rateOrZero]

theorem map (same : SameRates t t' xs ys) {f : ℚ → ℚ} (zero : f 0 = 0) :
    SameRates t t' (xs.map f) (ys.map f) := by
  refine ⟨by rw [List.length_map, same.fits], by rw [List.length_map, same.fits'], ?_⟩
  rw [entry_map same.fits zero, entry_map same.fits' zero, same.entry]

theorem zipWith (same : SameRates t t' xs ys) (same' : SameRates t t' us vs) {f : ℚ → ℚ → ℚ}
    (zero : f 0 0 = 0) : SameRates t t' (List.zipWith f xs us) (List.zipWith f ys vs) := by
  refine ⟨?_, ?_, ?_⟩
  · rw [List.length_zipWith, same.fits, same'.fits, Nat.min_self]
  · rw [List.length_zipWith, same.fits', same'.fits', Nat.min_self]
  · rw [entry_zipWith same.fits same'.fits zero, entry_zipWith same.fits' same'.fits' zero,
      same.entry, same'.entry]

theorem sum (same : SameRates t t' xs ys) : Scalar.sum ys = Scalar.sum xs := by
  rw [sum_eq_sum_entry same.fits, sum_eq_sum_entry same.fits', same.entry]

/-- Only the coefficients of phases that flow count in a product. -/
theorem dot (same : SameRates t t' xs ys) (coefficients : SameCoefficients t t' cs cs') :
    Scalar.dot cs' ys = Scalar.dot cs xs := by
  have products : SameRates t t' (List.zipWith (· * ·) cs xs) (List.zipWith (· * ·) cs' ys) := by
    refine ⟨?_, ?_, ?_⟩
    · rw [List.length_zipWith, coefficients.fits, same.fits, Nat.min_self]
    · rw [List.length_zipWith, coefficients.fits', same.fits', Nat.min_self]
    · rw [entry_zipWith coefficients.fits same.fits (mul_zero 0),
        entry_zipWith coefficients.fits' same.fits' (mul_zero 0), same.entry]
      funext p
      by_cases none : t.entry xs p = 0
      · rw [none, mul_zero, mul_zero]
      · obtain ⟨active, active'⟩ := same.active_of_entry none
        rw [coefficients.entry p active active']
  have summed := products.sum
  rwa [Scalar.sum_eq, Scalar.sum_eq, ← Scalar.dot_eq, ← Scalar.dot_eq] at summed

end SameRates

end PhaseTable

open PhaseTable

section Arrays

structure Grid.SameRates (t t' : PhaseTable) (g g' : Grid ℚ) : Prop where
  shape : g.shape = [t.size]
  shape' : g'.shape = [t'.size]
  line : PhaseTable.SameRates t t' g.line g'.line

namespace Grid.SameRates
variable {g g' : Grid ℚ}

theorem ofList {xs ys : List ℚ} (same : PhaseTable.SameRates t t' xs ys) :
    Grid.SameRates t t' (.ofList xs) (.ofList ys) :=
  ⟨congrArg (fun n => [n]) same.fits, congrArg (fun n => [n]) same.fits', same⟩

theorem map (same : Grid.SameRates t t' g g') {f : ℚ → ℚ} (zero : f 0 = 0) :
    Grid.SameRates t t' (g.map f) (g'.map f) := by
  refine ⟨same.shape, same.shape', ?_⟩
  rw [Grid.line_map, Grid.line_map]
  exact same.line.map zero

theorem weighted (same : Grid.SameRates t t' g g') {cs cs' : List ℚ}
    (coefficients : SameCoefficients t t' cs cs') : weighted cs' g' = weighted cs g := by
  rw [weighted_eq coefficients.fits same.shape, weighted_eq coefficients.fits' same.shape',
    same.line.dot coefficients]

end Grid.SameRates

namespace FormationVolume

section Inactive
variable {c : FormationVolume ℚ} {r : Region ℚ} {rates : List ℚ} {p : Phase}

/-- Without oil, or without gas, nothing goes over from the one into the other. -/
theorem exchange_of_inactive (phase : p = .oil ∨ p = .gas) (inactive : p ∉ c.table.active) :
    c.dissolved r = 0 ∧ c.vaporized r = 0 := by
  have missing : c.table.has p = false := decide_eq_false inactive
  have apart : c.mixes = false := by
    rcases phase with rfl | rfl <;> simp [mixes, missing]
  simp [dissolved, vaporized, apart]

theorem phaseVoidage_of_inactive (inactive : p ∉ c.table.active) :
    c.phaseVoidage r rates p = 0 := by
  have none := PhaseTable.entry_of_inactive rates inactive
  cases p with
  | water => rw [phaseVoidage, none, zero_mul]
  | oil =>
    obtain ⟨-, vaporized⟩ := exchange_of_inactive (r := r) (.inl rfl) inactive
    rw [phaseVoidage, none, vaporized, zero_mul, sub_zero, zero_mul, zero_div]
  | gas =>
    obtain ⟨dissolved, -⟩ := exchange_of_inactive (r := r) (.inr rfl) inactive
    rw [phaseVoidage, none, dissolved, zero_mul, sub_zero, zero_mul, zero_div]

end Inactive

variable {c c' : FormationVolume ℚ}

structure SameRegions (c c' : FormationVolume ℚ) : Prop where
  regions : c'.regions = c.regions
  fallback : c'.fallback = c.fallback

/-- As much goes over from oil into gas, and from gas into oil, wherever properties are defined. -/
structure SameExchange (c c' : FormationVolume ℚ) : Prop where
  dissolved : ∀ fip pvt r, c.region fip pvt = .ok r → c'.dissolved r = c.dissolved r
  vaporized : ∀ fip pvt r, c.region fip pvt = .ok r → c'.vaporized r = c.vaporized r

theorem SameRegions.region (same : SameRegions c c') (fip pvt : Int) :
    c'.region fip pvt = c.region fip pvt := by
  rw [FormationVolume.region, FormationVolume.region, same.regions, same.fallback]

theorem voidage_alike (same : SameRegions c c') (exchange : SameExchange c c') (fip pvt : Int)
    {g g' : Grid ℚ} (rates : Grid.SameRates c.table c'.table g g') :
    Outcome.Alike (PhaseTable.SameRates c.table c'.table) (c.voidage fip pvt g)
      (c'.voidage fip pvt g') := by
  simp only [voidage, rates.shape, rates.shape', ne_eq, not_true_eq_false, if_false,
    same.region fip pvt]
  cases found : c.region fip pvt with
  | error f => exact .error f
  | ok r =>
    have dissolved := exchange.dissolved fip pvt r found
    have vaporized := exchange.vaporized fip pvt r found
    have phases : c'.phaseVoidage r g'.line = c.phaseVoidage r g.line := by
      funext p
      cases p <;> simp only [phaseVoidage, rates.line.entry, determinant, dissolved, vaporized]
    refine .ok ⟨List.length_map _, List.length_map _, ?_⟩
    rw [entry_map_active_eq fun p => phaseVoidage_of_inactive,
      entry_map_active_eq fun p => phaseVoidage_of_inactive, phases]

theorem coefficients_alike (same : SameRegions c c') (exchange : SameExchange c c')
    (fip pvt : Int) :
    Outcome.Alike (SameCoefficients c.table c'.table) (c.coefficients fip pvt)
      (c'.coefficients fip pvt) := by
  simp only [coefficients, same.region fip pvt]
  cases found : c.region fip pvt with
  | error f => exact .error f
  | ok r =>
    have dissolved := exchange.dissolved fip pvt r found
    have vaporized := exchange.vaporized fip pvt r found
    have phases : c'.phaseCoefficient r = c.phaseCoefficient r := by
      funext p
      cases p <;> simp only [phaseCoefficient, determinant, dissolved, vaporized]
    refine .ok ⟨List.length_map _, List.length_map _, fun p active active' => ?_⟩
    rw [entry_map_active _ active, entry_map_active _ active', phases]

end FormationVolume
end Arrays

section Quantities

def RateQuantity.Same (t t' : PhaseTable) (quantity quantity' : RateQuantity ℚ) : Prop :=
  ∀ g g', Grid.SameRates t t' g g' → quantity' g' = quantity g

variable {cs cs' : List ℚ}

theorem productionQuantity_alike (coefficients : SameCoefficients t t' cs cs')
    (mode : GroupProductionMode) :
    Outcome.Alike (RateQuantity.Same t t') (productionQuantity mode t cs)
      (productionQuantity mode t' cs') := by
  cases mode with
  | none | fld => exact .error _
  | orat | wrat | grat | lrat =>
    refine .ok fun g g' rates => ?_
    rw [rates.line.rateOrZero]
  | resv =>
    refine .ok fun g g' rates => ?_
    rw [rates.weighted coefficients]

theorem injectionQuantity_alike (coefficients : SameCoefficients t t' cs cs')
    (mode : GroupInjectionMode) {p : Phase} (listed : p ∈ t.active ↔ p ∈ t'.active) :
    Outcome.Alike (RateQuantity.Same t t') (injectionQuantity mode p t cs)
      (injectionQuantity mode p t' cs') := by
  refine (position_alike listed).bind fun _ _ _ => ?_
  cases mode with
  | none | fld => exact .error _
  | rate =>
    refine .ok fun g g' rates => ?_
    rw [rates.line.rate_eq listed]
  | resv =>
    refine .ok fun g g' rates => ?_
    rw [rates.line.rate_eq listed, coefficients.rate_eq listed]

end Quantities
end WellControl
