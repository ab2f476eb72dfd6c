import Mathlib.Algebra.BigOperators.Fin
import WellControl.Proofs.Economic.Calls
import WellControl.Proofs.Economic.OwnRates
import WellControl.Proofs.Exact
import WellControl.Proofs.Plain

/-! # Ratio checks spread over several processes

The connections of a well are spread over processes, each of which adds up what it owns and hands
the sums to a collective reduction.  A reduction answers only a call that every process makes, so
the processes have to stay in step, through the completions (`Distributed.highest_eq`) and through
the limits (`Distributed.checkLimits_eq`), with one that owns everything. -/
set_option autoImplicit false

namespace WellControl
open scoped BigOperators

def total {n : Nat} (width : Nat) (buffers : Fin n → List ℚ) : List ℚ :=
  List.ofFn fun j : Fin width => ∑ r, (buffers r).getD j 0

/-- Each process gets the sum of the arrays handed in to a call, provided that all processes make
that call.  The first call has number `first`. -/
def Collective {n : Nat} (width first : Nat) (reduce : Fin n → Nat → List ℚ → Outcome ℚ (List ℚ))
    (calls : Fin n → List (List ℚ)) : Prop :=
  ∀ m buffers, (∀ r, (calls r)[m]? = some (buffers r)) →
    ∀ r, reduce r (first + m) (buffers r) = .ok (total width buffers)

namespace Collective
variable {n width first : Nat} {reduce : Fin n → Nat → List ℚ → Outcome ℚ (List ℚ)}
  {a b : Fin n → List (List ℚ)}

theorem left (collective : Collective width first reduce fun r => a r ++ b r) :
    Collective width first reduce a := by
  intro m buffers called
  apply collective m buffers
  intro r
  rw [List.getElem?_append_left (List.getElem?_eq_some_iff.1 (called r)).1, called r]

theorem right {count : Nat} (collective : Collective width first reduce fun r => a r ++ b r)
    (length_eq : ∀ r, (a r).length = count) : Collective width (first + count) reduce b := by
  intro m buffers called
  rw [Nat.add_assoc]
  apply collective (count + m) buffers
  intro r
  rw [List.getElem?_append_right (by rw [length_eq]; exact Nat.le_add_right count m), length_eq,
    Nat.add_sub_cancel_left, called r]

/-- What it takes for a reduction to be collective, call by call. -/
theorem of_calls (count : Nat) (buffers : Nat → Fin n → List ℚ) {calls : Fin n → List (List ℚ)}
    (listed : ∀ r, calls r = (List.range count).map fun m => buffers m r)
    (answered : ∀ m r, reduce r (first + m) (buffers m r) = .ok (total width (buffers m))) :
    Collective width first reduce calls := by
  intro m handed called r
  have inside : m < count := by
    have bound := (List.getElem?_eq_some_iff.1 (called r)).1
    rw [listed r, List.length_map, List.length_range] at bound
    exact bound
  have same : handed = buffers m := by
    funext s
    have found := called s
    rw [listed s, List.getElem?_map, List.getElem?_range inside] at found
    exact (Option.some.inj found).symm
  rw [same, answered m r]

end Collective

/-- The processes of one well, beside a single process that owns all of it.  Every connection has
one owner, whose row of rates is right; the other rows of a process are of no account. -/
structure Distributed {n : Nat} (ranks : Fin n → RatioSource ℚ) (whole : RatioSource ℚ) : Prop where
  well : ∀ r, (ranks r).well = whole.well
  table : ∀ r, (ranks r).table = whole.table
  constants : ∀ r, (ranks r).constants = whole.constants
  surface : ∀ r, (ranks r).state.surface = whole.state.surface
  serial : whole.ownership = .serial
  rows : whole.HasRows
  rankRows : ∀ r, (ranks r).HasRows
  owner : ∀ c ∈ whole.well.connections, ∃! r, (ranks r).ownership.isOwner c.index = true
  correct : ∀ r, ∀ c ∈ whole.well.connections, (ranks r).ownership.isOwner c.index = true →
    (ranks r).state.perforationRates.part? c.index = whole.state.perforationRates.part? c.index

theorem RatioSource.ownSum_cons (r : RatioSource ℚ) (i : Nat) (rest : List Nat) (j : Nat) :
    r.ownSum (i :: rest) j =
      (if r.ownership.isOwner i then r.state.perforationRates.cell i j else 0) +
        r.ownSum rest j := by
  simp only [ownSum, Scalar.sum_eq, List.filter_cons]
  split_ifs
  · rw [List.map_cons, List.sum_cons]
  · rw [zero_add]

namespace Distributed
variable {n : Nat} {ranks : Fin n → RatioSource ℚ} {whole : RatioSource ℚ}

theorem sum_cell (d : Distributed ranks whole) {c : Connection}
    (connected : c ∈ whole.well.connections) (j : Nat) :
    (∑ r, if (ranks r).ownership.isOwner c.index then
        (ranks r).state.perforationRates.cell c.index j else 0) =
      whole.state.perforationRates.cell c.index j := by
  obtain ⟨r, owns, only⟩ := d.owner c connected
  rw [Finset.sum_eq_single r]
  · rw [if_pos owns, Grid.cell_congr (d.correct r c connected owns)]
  · intro s _ other
    rw [if_neg fun owns' => other (only s owns')]
  · intro absent
    exact absurd (Finset.mem_univ r) absent

/-- What the processes own adds up to the whole. -/
theorem sum_ownSum (d : Distributed ranks whole) {connections : List Nat}
    (connected : ∀ i ∈ connections, ∃ c ∈ whole.well.connections, c.index = i) (j : Nat) :
    ∑ r, (ranks r).ownSum connections j = whole.ownSum connections j := by
  induction connections with
  | nil => exact Finset.sum_const_zero
  | cons i rest ih =>
    obtain ⟨c, listed, rfl⟩ := connected i List.mem_cons_self
    have owns : whole.ownership.isOwner c.index = true := by
      rw [d.serial]
      rfl
    simp only [RatioSource.ownSum_cons, Finset.sum_add_distrib, d.sum_cell listed, owns, if_true]
    rw [ih fun i' later => connected i' (List.mem_cons_of_mem _ later)]

theorem total_ofFn {width : Nat} (f : Fin n → Nat → ℚ) :
    total width (fun r => List.ofFn fun j : Fin width => f r j) =
      List.ofFn fun j : Fin width => ∑ r, f r j := by
  rw [total]
  congr 1
  funext j
  apply Finset.sum_congr rfl
  intro r _
  rw [List.getD_eq_getElem _ _ (by rw [List.length_ofFn]; exact j.isLt), List.getElem_ofFn]

theorem whole_ownRates (d : Distributed ranks whole) {connections : List Nat}
    (connected : ∀ i ∈ connections, ∃ c ∈ whole.well.connections, c.index = i) :
    whole.ownRates connections =
      .ok (List.ofFn fun j : Fin whole.table.size => whole.ownSum connections j) := by
  apply RatioSource.ownRates_eq d.rows
  intro i listed
  obtain ⟨c, listed', rfl⟩ := connected i listed
  exact whole.index_lt_rowsNeeded listed'

theorem ownRates_eq (d : Distributed ranks whole) (r : Fin n) {connections : List Nat}
    (connected : ∀ i ∈ connections, ∃ c ∈ whole.well.connections, c.index = i) :
    (ranks r).ownRates connections =
      .ok (List.ofFn fun j : Fin whole.table.size => (ranks r).ownSum connections j) := by
  have inside : ∀ i ∈ connections, i < (ranks r).rowsNeeded := by
    intro i listed
    obtain ⟨c, listed', rfl⟩ := connected i listed
    rw [← d.well r] at listed'
    exact (ranks r).index_lt_rowsNeeded listed'
  rw [RatioSource.ownRates_eq (d.rankRows r) inside, d.table r]

/-- The processes go through the completions in step with the single process. -/
theorem highest_eq (d : Distributed ranks whole) (k : RatioKind)
    {completions : List (Int × List Nat)} {n' : Nat}
    (connected : ∀ e ∈ completions, ∀ i ∈ e.2, ∃ c ∈ whole.well.connections, c.index = i)
    (collective : Collective whole.table.size n' (fun r => (ranks r).ownership.reduce)
      fun r => (ranks r).scanCalls k completions n')
    (best : Highest ℚ) (r : Fin n) :
    (ranks r).highest k completions n' best = whole.highest k completions n' best := by
  induction completions generalizing n' best with
  | nil => rfl
  | cons completion rest ih =>
    obtain ⟨id, connections⟩ := completion
    have own : ∀ i ∈ connections, ∃ c ∈ whole.well.connections, c.index = i :=
      connected (id, connections) List.mem_cons_self
    have later : ∀ e ∈ rest, ∀ i ∈ e.2, ∃ c ∈ whole.well.connections, c.index = i :=
      fun e listed => connected e (List.mem_cons_of_mem _ listed)
    simp only [RatioSource.scanCalls, d.ownRates_eq _ own] at collective
    -- Every process is at this completion, so the reduction answers all of them.
    have answered := collective 0 _ fun _ => rfl
    simp only [Nat.add_zero, total_ofFn, d.sum_ownSum own] at answered
    have whole_reduce : ∀ rates, whole.ownership.reduce n' rates = .ok rates := by
      intro rates
      rw [d.serial]
      rfl
    simp only [answered, d.table, d.constants, Outcome.ok_bind] at collective
    simp only [RatioSource.highest, d.ownRates_eq r own, d.whole_ownRates own, answered,
      whole_reduce, d.table, d.constants, Outcome.ok_bind]
    cases computed : k.ratio whole.constants whole.table
        (List.ofFn fun j : Fin whole.table.size => whole.ownSum connections j) with
    | error f => rfl
    | ok x =>
      simp only [computed] at collective
      exact ih later (Collective.right (a := fun _ => [_]) collective fun _ => rfl) _

theorem exceeds_eq (d : Distributed ranks whole) (l : EconomicLimits ℚ) (k : RatioKind)
    (r : Fin n) : (ranks r).exceeds l k = whole.exceeds l k := by
  simp only [RatioSource.exceeds, d.table, d.constants, d.surface]

theorem wellOutcome_eq (d : Distributed ranks whole) (l : EconomicLimits ℚ) (k : RatioKind)
    (r : Fin n) : (ranks r).wellOutcome l k = whole.wellOutcome l k := by
  simp only [RatioSource.wellOutcome, WellState.exceeds, d.table, d.constants, d.surface]

theorem completionCalls_eq (d : Distributed ranks whole) (k : RatioKind) (n' : Nat) (r : Fin n) :
    (ranks r).completionCalls k n' = (ranks r).scanCalls k whole.well.completions n' := by
  rw [RatioSource.completionCalls, if_neg (d.rankRows r).shape_ne,
    if_neg (d.rankRows r).not_missing, d.well r]

theorem checkCompletions_eq (d : Distributed ranks whole) (k : RatioKind) (limit : ℚ)
    {n' : Nat}
    (collective : Collective whole.table.size n' (fun r => (ranks r).ownership.reduce)
      fun r => (ranks r).completionCalls k n')
    (report : RatioReport ℚ) (r : Fin n) :
    (ranks r).checkCompletions k limit ⟨report, n'⟩ =
      whole.checkCompletions k limit ⟨report, n'⟩ := by
  simp only [d.completionCalls_eq] at collective
  have connected : ∀ e ∈ whole.well.completions, ∀ i ∈ e.2,
      ∃ c ∈ whole.well.connections, c.index = i :=
    fun e completion i listed => exists_connection_of_mem completion listed
  simp only [RatioSource.checkCompletions, if_neg (d.rankRows r).shape_ne,
    if_neg (d.rankRows r).not_missing, if_neg d.rows.shape_ne, if_neg d.rows.not_missing, d.well r,
    d.highest_eq k connected collective]

theorem checkLimit_eq (d : Distributed ranks whole) (l : EconomicLimits ℚ) (k : RatioKind)
    {p : RatioProgress ℚ}
    (collective : Collective whole.table.size p.reductions (fun r => (ranks r).ownership.reduce)
      fun r => (ranks r).limitCalls l k p.reductions)
    (r : Fin n) : (ranks r).checkLimit k (k.limit l) p = whole.checkLimit k (k.limit l) p := by
  have same := d.exceeds_eq l k r
  simp only [RatioSource.limitCalls, d.exceeds_eq] at collective
  cases above : whole.exceeds l k with
  | false =>
    rw [RatioSource.checkLimit_of_not_exceeds above,
      RatioSource.checkLimit_of_not_exceeds (same.trans above), d.wellOutcome_eq]
  | true =>
    obtain ⟨limit, _, active, _⟩ := RatioSource.exceeds_eq_true_iff.1 above
    simp only [above, if_true] at collective
    rw [RatioSource.checkLimit_of_exceeds active above,
      RatioSource.checkLimit_of_exceeds active (same.trans above)]
    exact d.checkCompletions_eq k limit.val collective _ r

/-- The processes go through the limits in step with the single process. -/
theorem checkLimits_eq (d : Distributed ranks whole) (l : EconomicLimits ℚ)
    {kinds : List RatioKind} {p : RatioProgress ℚ}
    (collective : Collective whole.table.size p.reductions (fun r => (ranks r).ownership.reduce)
      fun r => (ranks r).callsOver l kinds p)
    (r : Fin n) : (ranks r).checkLimits l kinds p = whole.checkLimits l kinds p := by
  induction kinds generalizing p with
  | nil => rfl
  | cons k rest ih =>
    simp only [RatioSource.callsOver] at collective
    simp only [RatioSource.checkLimits]
    split_ifs at collective ⊢
    · have own := d.checkLimit_eq l k collective.left
      have counted : ∀ s, ((ranks s).limitCalls l k p.reductions).length =
          (whole.limitCalls l k p.reductions).length := by
        intro s
        have ranked := (ranks s).checkLimit_reductions l k p
        rw [own s, whole.checkLimit_reductions l k p] at ranked
        exact (Nat.add_left_cancel ranked).symm
      have later := collective.right counted
      rw [← whole.checkLimit_reductions l k p] at later
      simp only [own] at later ⊢
      rcases checked : whole.checkLimit k (k.limit l) p with ⟨outcome, p'⟩
      simp only [checked] at later
      cases outcome with
      | error f => rfl
      | ok _ => exact ih later
    · exact ih collective

end Distributed

/-- Checked on every process, the limits come to what a single process makes of them: the same
report, or the same fault.  All processes make the same number of reductions, which unless the
check fails is one for each completion and each limit that the well exceeds. -/
theorem distributed_checkRatios {n : Nat} {ranks : Fin n → RatioSource ℚ} {whole : RatioSource ℚ}
    (d : Distributed ranks whole) (l : EconomicLimits ℚ) (p : RatioProgress ℚ)
    (collective : Collective whole.table.size p.reductions (fun r => (ranks r).ownership.reduce)
      fun r => (ranks r).calls l p) :
    (∀ r, (ranks r).checkRatios l p = whole.checkRatios l p) ∧
    (∀ r s, ((ranks r).calls l p).length = ((ranks s).calls l p).length) ∧
    ((whole.checkRatios l p).1 = .ok () → ∀ r, ((ranks r).calls l p).length =
      whole.well.completions.length *
        (RatioKind.checkingOrder.filter (whole.exceeds l)).length) := by
  have same : ∀ r, (ranks r).checkRatios l p = whole.checkRatios l p := by
    intro r
    rw [RatioSource.checkRatios, RatioSource.checkRatios, d.checkLimits_eq l collective]
  have counted : ∀ r, ((ranks r).calls l p).length = (whole.calls l p).length := by
    intro r
    have ranked := (ranks r).checkRatios_reductions l p
    rw [same r, whole.checkRatios_reductions l p] at ranked
    exact (Nat.add_left_cancel ranked).symm
  refine ⟨same, fun r s => (counted r).trans (counted s).symm, fun checked r => ?_⟩
  rw [counted r, whole.checkRatios_calls_length l checked]

section Spread

def spreadSource (ownership : Ownership ℚ) (upper lower : ℚ × ℚ × ℚ) : RatioSource ℚ where
  well := { WellHeader.plain "P" "G" with
    connections := twoConnections
    distinct := twoConnections_distinct }
  state := .flowing "P" (-60, -40, 0) [upper, lower]
  table := .blackOil
  ownership
  constants := .standard

def spreadBuffers (m : Nat) : Fin 3 → List ℚ :=
  if m = 0 then ![[-50, -10, 0], [0, 0, 0], [0, 0, 0]] else ![[0, 0, 0], [-10, -30, 0], [0, 0, 0]]

def spreadRanks (r : Fin 3) : RatioSource ℚ :=
  spreadSource ⟨some (![[0], [1], []] r), fun m _ => .ok (total 3 (spreadBuffers m))⟩
    (![(-50, -10, 0), (7, 7, 7), (1, -1, 0)] r) (![(-1000, -1, 0), (-10, -30, 0), (0, 0, 5)] r)

def spreadWhole : RatioSource ℚ := spreadSource .serial (-50, -10, 0) (-10, -30, 0)

/-- Who owns a connection. -/
theorem spread_owner :
    (∀ r, (spreadRanks r).ownership.isOwner 0 = true → r = 0) ∧
      ∀ r, (spreadRanks r).ownership.isOwner 1 = true → r = 1 := by
  decide

theorem spread_distributed : Distributed spreadRanks spreadWhole where
  well _ := rfl
  table _ := rfl
  constants _ := rfl
  surface _ := rfl
  serial := rfl
  rows := ⟨2, rfl, by decide⟩
  rankRows _ := ⟨2, rfl, (by decide : spreadWhole.rowsNeeded ≤ 2)⟩
  owner := by
    intro c listed
    rcases List.mem_pair.1 listed with rfl | rfl
    · exact ⟨0, by decide, spread_owner.1⟩
    · exact ⟨1, by decide, spread_owner.2⟩
  correct := by
    intro r c listed owns
    rcases List.mem_pair.1 listed with rfl | rfl
    · cases spread_owner.1 r owns
      rfl
    · cases spread_owner.2 r owns
      rfl

theorem spread_checkRatios :
    (spreadWhole.checkRatios .halfWater ⟨.fresh, 0⟩).2.1.report = ⟨true, 1, 5 / 3⟩ ∧
      (∀ r, (spreadRanks r).checkRatios .halfWater ⟨.fresh, 0⟩ =
        spreadWhole.checkRatios .halfWater ⟨.fresh, 0⟩) ∧
      (∀ r s, ((spreadRanks r).calls .halfWater ⟨.fresh, 0⟩).length =
        ((spreadRanks s).calls .halfWater ⟨.fresh, 0⟩).length) ∧
      ((spreadWhole.checkRatios .halfWater ⟨.fresh, 0⟩).1 = .ok () → ∀ r,
        ((spreadRanks r).calls .halfWater ⟨.fresh, 0⟩).length = 2 *
          (RatioKind.checkingOrder.filter (spreadWhole.exceeds .halfWater)).length) :=
  ⟨by decide +kernel,
    distributed_checkRatios spread_distributed .halfWater ⟨.fresh, 0⟩
      (Collective.of_calls 2 spreadBuffers (by decide +kernel) fun m _ =>
        congrArg (fun k => Except.ok (total 3 (spreadBuffers k))) (Nat.zero_add m))⟩

end Spread
end WellControl
