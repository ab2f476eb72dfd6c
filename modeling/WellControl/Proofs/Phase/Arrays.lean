import Mathlib.Data.List.Induction
import Mathlib.Data.List.Nodup
import Mathlib.Data.Rat.Defs
import WellControl.Proofs.Phase.Entries

/-! # Arrays of rates given by phase

An array with one entry for each active phase is a function of phases, listed in the order of the
table.  Storing a rate updates this function at one phase (`PhaseTable.store_map_active`), so that
the array of rates given one after the other lists the last rate of each phase
(`PhaseTable.toArray_eq`), and the array of its own entries is the array itself, whichever order
they are given in. -/
set_option autoImplicit false

namespace WellControl.PhaseTable
variable {α : Type} {t : PhaseTable} {p : Phase}

theorem active_of_ofList {active : List Phase}
    (accepted : (ofList active : Outcome α PhaseTable) = .ok t) : t.active = active := by
  unfold ofList at accepted
  split at accepted
  · cases accepted
  · split at accepted
    · cases accepted
      rfl
    · cases accepted

/-! ## Storing a rate -/

theorem store_map_active (active : p ∈ t.active) (f : Phase → α) (x : α) :
    t.store (t.active.map f) p x = .ok (t.active.map (Function.update f p x)) := by
  rw [store, position_eq active, List.Nodup.map_update t.distinct, if_pos active]
  rfl

theorem store_of_inactive (inactive : p ∉ t.active) (array : List α) (x : α) :
    t.store array p x = .error (.inactivePhase p) := by
  rw [store, position_of_inactive inactive]
  rfl

theorem read_name (p : Phase) :
    (Enumeration.read (Enumeration.name p) : Outcome α Phase) = .ok p := by
  cases p <;> rfl

/-! ## Rates given one after the other -/

variable [Scalar α] {rates : List (Phase × α)}

/-- The last rate given for a phase, and zero if none was. -/
def lastRate (rates : List (Phase × α)) (p : Phase) : α :=
  ((rates.reverse.find? fun r => r.1 = p).map Prod.snd).getD 0

theorem lastRate_append_singleton (rates : List (Phase × α)) (r : Phase × α) :
    lastRate (rates ++ [r]) = Function.update (lastRate rates) r.1 r.2 := by
  funext p
  rw [lastRate, List.reverse_append, List.reverse_singleton, List.singleton_append]
  by_cases given : r.1 = p
  · rw [List.find?_cons_of_pos (by simpa using given), ← given, Function.update_self]
    rfl
  · rw [List.find?_cons_of_neg (by simpa using given), Function.update_of_ne (Ne.symm given)]
    rfl

theorem toArray_append_singleton (t : PhaseTable) (rates : List (Phase × α)) (r : Phase × α) :
    t.toArray (rates ++ [r]) = t.toArray rates >>= fun array => t.store array r.1 r.2 := by
  simp only [toArray, List.foldlM_append, List.foldlM_cons, List.foldlM_nil, bind_pure]

theorem toArray_eq (active : ∀ r ∈ rates, r.1 ∈ t.active) :
    t.toArray rates = .ok (t.active.map (lastRate rates)) := by
  induction rates using List.reverseRecOn with
  | nil => exact congrArg Except.ok t.zeros_eq
  | append_singleton rates r ih =>
    have earlier := ih fun e listed => active e (List.mem_append_left _ listed)
    have now := active r (List.mem_append_right _ List.mem_cons_self)
    rw [toArray_append_singleton, earlier, Outcome.ok_bind, store_map_active now,
      lastRate_append_singleton]

/-- The first rate given for an inactive phase ends the attempt. -/
theorem toArray_eq_error {earlier later : List (Phase × α)} {r : Phase × α}
    (active : ∀ e ∈ earlier, e.1 ∈ t.active) (inactive : r.1 ∉ t.active) :
    t.toArray (earlier ++ r :: later) = .error (.inactivePhase r.1) := by
  have stored := toArray_eq active
  rw [toArray] at stored ⊢
  rw [List.foldlM_append, stored, Outcome.ok_bind, List.foldlM_cons, store_of_inactive inactive,
    Outcome.error_bind]

theorem exists_toArray_eq_error (inactive : ∃ r ∈ rates, r.1 ∉ t.active) :
    ∃ p, t.toArray rates = .error (.inactivePhase p) := by
  obtain ⟨r, listed, off⟩ := inactive
  have refused : (rates.find? fun r => decide (r.1 ∉ t.active)).isSome :=
    List.find?_isSome.2 ⟨r, listed, decide_eq_true off⟩
  obtain ⟨first, found⟩ := Option.isSome_iff_exists.1 refused
  obtain ⟨off, earlier, later, rfl, active⟩ := List.find?_eq_some_iff_append.1 found
  refine ⟨first.1, toArray_eq_error (fun e listed => ?_) (of_decide_eq_true off)⟩
  simpa using active e listed

/-- Phases given by name are the phases themselves. -/
theorem toArrayNamed_eq (t : PhaseTable) (rates : List (Phase × α)) :
    t.toArrayNamed (rates.map fun r => (Enumeration.name r.1, r.2)) = t.toArray rates := by
  simp only [toArrayNamed, List.foldlM_map, read_name, Outcome.ok_bind]
  rfl

/-! ## The rates of an array -/

def readings (t : PhaseTable) (array : List α) (phases : List Phase) :
    Outcome α (List (Phase × α)) :=
  phases.mapM fun p => do return (p, ← t.rate array p)

theorem lastRate_map (f : Phase → α) {phases : List Phase} (given : p ∈ phases) :
    lastRate (phases.map fun q => (q, f q)) p = f p := by
  induction phases using List.reverseRecOn with
  | nil => exact absurd given List.not_mem_nil
  | append_singleton phases q ih =>
    rw [List.map_append, List.map_singleton, lastRate_append_singleton]
    by_cases same : p = q
    · rw [same, Function.update_self]
    · rw [Function.update_of_ne same]
      exact ih ((List.mem_append.1 given).resolve_right (by simpa using same))

theorem readings_eq {array : List α} (fits : array.length = t.size) {phases : List Phase}
    (active : ∀ p ∈ phases, p ∈ t.active) :
    t.readings array phases = .ok (phases.map fun p => (p, t.entry array p)) := by
  apply Outcome.mapM_eq_ok
  intro p listed
  rw [rate_eq fits (active p listed)]
  rfl

theorem toArray_readings {array : List α} (fits : array.length = t.size) {phases : List Phase}
    (listed : ∀ p, p ∈ phases ↔ p ∈ t.active) :
    t.readings array phases >>= t.toArray = .ok array := by
  have given : ∀ r ∈ phases.map fun p => (p, t.entry array p), r.1 ∈ t.active := by
    intro r member
    obtain ⟨p, among, rfl⟩ := List.mem_map.1 member
    exact (listed p).1 among
  have same : t.active.map (lastRate (phases.map fun p => (p, t.entry array p))) =
      t.active.map (t.entry array) :=
    List.map_congr_left fun p active => lastRate_map _ ((listed p).2 active)
  rw [readings_eq fits fun p => (listed p).1, Outcome.ok_bind, toArray_eq given, same,
    map_entry fits]

/-- Rates given one after the other make an array unless one of their phases is not active.  The
array has one entry for each active phase, which is the last rate given for it, or zero.  An array
is made again from its own rates, given in any order. -/
theorem toArray_round_trip {active : List Phase}
    (accepted : (ofList active : Outcome α PhaseTable) = .ok t) :
    (∀ rates : List (Phase × α),
      (∃ fault, t.toArray rates = .error fault ∧ fault.kind = .phase) ↔
        ∃ r ∈ rates, r.1 ∉ active) ∧
    (∀ rates : List (Phase × α), (∀ r ∈ rates, r.1 ∈ active) →
      ∃ array, t.toArray rates = .ok array ∧ array.length = t.size ∧
        ∀ p ∈ active, t.rate array p = .ok (lastRate rates p)) ∧
    (∀ array : List α, array.length = t.size → ∀ phases, (∀ p, p ∈ phases ↔ p ∈ active) →
      t.readings array phases >>= t.toArray = .ok array) ∧
    ∀ rates : List (Phase × α),
      t.toArrayNamed (rates.map fun r => (Enumeration.name r.1, r.2)) = t.toArray rates := by
  obtain rfl := active_of_ofList accepted
  refine ⟨fun rates => ⟨?_, ?_⟩, fun rates active => ?_, fun array fits phases listed => ?_,
    t.toArrayNamed_eq⟩
  · rintro ⟨fault, failed, -⟩
    by_contra! active
    rw [toArray_eq active] at failed
    cases failed
  · intro inactive
    obtain ⟨p, failed⟩ := exists_toArray_eq_error inactive
    exact ⟨_, failed, rfl⟩
  · have fits : (t.active.map (lastRate rates)).length = t.size := List.length_map _
    refine ⟨_, toArray_eq active, fits, fun p now => ?_⟩
    rw [rate_eq fits now, entry_map_active _ now]
  · exact toArray_readings fits listed

def gasWater : PhaseTable := ⟨[.gas, .water], by decide, by decide⟩

theorem gasWater_round_trip :
    (ofList [.gas, .water] : Outcome ℚ PhaseTable) = .ok gasWater ∧
    (∃ array : List ℚ, gasWater.toArray [(.water, 1), (.gas, 2), (.water, 3)] = .ok array ∧
      array.length = 2 ∧ gasWater.rate array .water = .ok 3 ∧ gasWater.rate array .gas = .ok 2) ∧
    (∃ fault : Fault ℚ, gasWater.toArray [(.water, 1), (.oil, 2)] = .error fault ∧
      fault.kind = .phase) ∧
    gasWater.readings [5, 7] [.water, .gas] >>= gasWater.toArray =
      (.ok [5, 7] : Outcome ℚ (List ℚ)) := by
  have accepted : (ofList [.gas, .water] : Outcome ℚ PhaseTable) = .ok gasWater := rfl
  obtain ⟨refused, stored, again, -⟩ := toArray_round_trip accepted
  obtain ⟨array, made, fits, rates⟩ := stored [(.water, 1), (.gas, 2), (.water, 3)] (by decide)
  refine ⟨accepted, ⟨array, made, fits, rates .water (by decide), rates .gas (by decide)⟩, ?_, ?_⟩
  · exact (refused _).2 ⟨(.oil, 2), List.mem_cons_of_mem _ List.mem_cons_self, by decide⟩
  · exact again [5, 7] rfl [.water, .gas] (fun p => by cases p <;> decide)

end WellControl.PhaseTable
