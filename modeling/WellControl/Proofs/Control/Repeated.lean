import WellControl.Proofs.Pass.Faults

/-! # Repeated checks of a well's own limits

On rates and pressures that do not change, a well exceeds the same limits at every call of the check
of its own limits, whatever mode it runs on.  A call takes the well to the first of them that it
does not run on.  Calls one after the other therefore settle at once if the well exceeds at most one
limit, and otherwise take it to and fro between the first two for ever (`Evaluator.LimitRuns`).

What violates a limit is said by comparisons (`Injector.Violates`, `Producer.Violates`), and in
which order the limits count by `Well.visited`. -/
set_option autoImplicit false

namespace WellControl

def Outcome.affirms {φ : Type} : Except φ Bool → Bool
  | .ok answer => answer
  | .error _ => false

theorem Outcome.affirms_iff {φ : Type} {check : Except φ Bool} :
    Outcome.affirms check = true ↔ check = .ok true := by
  cases check <;> simp [affirms]

/-- If all enabled modes can be checked, the first one found is the first of those exceeded that is
not current. -/
theorem firstExceeded_eq_find? {μ φ : Type} [DecidableEq μ] {enabled : μ → Bool} {current : μ}
    {exceeded : μ → Except φ Bool} {order : List μ}
    (read : ∀ m ∈ order.filter enabled, ∃ answer, exceeded m = .ok answer) :
    firstExceeded enabled current exceeded order =
      .ok (((order.filter enabled).filter fun m => Outcome.affirms (exceeded m)).find?
        (· ≠ current)) := by
  induction order with
  | nil => rfl
  | cons head rest ih =>
    cases on : enabled head with
    | false =>
      rw [List.filter_cons_of_neg (by simp [on])] at read ⊢
      rw [firstExceeded, if_neg (by simp [on]), ih read]
    | true =>
      rw [List.filter_cons_of_pos on] at read ⊢
      obtain ⟨answer, answered⟩ := read head List.mem_cons_self
      have later := ih fun m member => read m (List.mem_cons_of_mem head member)
      rw [firstExceeded, on, Bool.true_and, answered]
      cases answer with
      | false =>
        rw [List.filter_cons_of_neg (by simp [answered, Outcome.affirms]), ← later]
        exact ite_self _
      | true =>
        rw [List.filter_cons_of_pos (by simp [answered, Outcome.affirms])]
        by_cases same : head = current
        · rw [List.find?_cons_of_neg (by simp [same]), ← later, if_neg (by simp [same])]
        · rw [List.find?_cons_of_pos (by simp [same]), if_pos (by simp [same])]

/-- Under names that tell modes apart, the first one that is not current is found where it was. -/
theorem find?_map_ne {μ ν : Type} [DecidableEq μ] [DecidableEq ν] {f : μ → ν}
    (injective : Function.Injective f) (modes : List μ) (current : μ) :
    (modes.map f).find? (· ≠ f current) = (modes.find? (· ≠ current)).map f := by
  have same : (fun m => decide (m ≠ f current)) ∘ f = fun m => decide (m ≠ current) := by
    funext m
    simp [injective.eq_iff]
  rw [List.find?_map, same]

def alternate {β : Type} (first second : β) : Nat → List β
  | 0 => []
  | n + 1 => first :: alternate second first n

variable {α : Type} [Scalar α]

/-! ## Violated limits -/

namespace Injector
variable {w : Injector α} {t : PhaseTable} {s : WellState α}

/-- The pressures and rates are above the limit of a mode. -/
def Violates (w : Injector α) (t : PhaseTable) (s : WellState α) : InjectorMode → Prop
  | .bhp => w.controls.bhpLimit.val < s.bhp
  | .rate => ∃ p injected, w.controls.fluid.phase? = some p ∧
      t.rateOrZero s.surface p = .ok injected ∧ w.controls.surfaceRate.val < injected
  | .resv => ∃ total, t.total s.reservoir = .ok total ∧ w.controls.reservoirRate.val < total
  | .thp => w.controls.thpLimit.val < s.thp
  | .none | .grup => False

theorem Violates.mem_visitingOrder {m : InjectorMode} (violated : w.Violates t s m) :
    m ∈ InjectorMode.visitingOrder := by
  cases m with
  | bhp | rate | resv | thp => decide
  | none | grup => cases violated

theorem exceeds_eq_true_iff {m : InjectorMode} : w.exceeds t s m = .ok true ↔ w.Violates t s m := by
  cases m with
  | bhp | thp | none | grup => simp [exceeds, Violates]
  | rate => simp [exceeds, Violates, Outcome.bind_eq_ok, phase_eq_ok]
  | resv => simp [exceeds, Violates, Outcome.bind_eq_ok]

end Injector

namespace Producer
variable {w : Producer α} {t : PhaseTable} {converter : RateConverter α} {constants : Constants α}
  {s : WellState α}

/-- The pressures are below the limit of a mode, or the rates, which are negative, are beyond it.  A
well that is not predicted may take as much from the reservoir as the rates that were observed. -/
def Violates (w : Producer α) (t : PhaseTable) (converter : RateConverter α)
    (constants : Constants α) (s : WellState α) : ProducerMode → Prop
  | .bhp => s.bhp < w.controls.bhpLimit.val
  | .orat => ∃ oil, t.rateOrZero s.surface .oil = .ok oil ∧ w.controls.oilRate.val < -oil
  | .wrat => ∃ water, t.rateOrZero s.surface .water = .ok water ∧
      w.controls.waterRate.val < -water
  | .grat => ∃ gas, t.rateOrZero s.surface .gas = .ok gas ∧ w.controls.gasRate.val < -gas
  | .lrat => ∃ oil water, t.rateOrZero s.surface .oil = .ok oil ∧
      t.rateOrZero s.surface .water = .ok water ∧ w.controls.liquidRate.val < -oil - water
  | .resv => ∃ total, t.total s.reservoir = .ok total ∧
      (w.controls.prediction = true ∧ w.controls.reservoirRate.val < -total ∨
        w.controls.prediction = false ∧ ∃ volumes,
          converter.voidage constants.fipRegion w.pvtRegion
            (.ofList (t.active.map fun p =>
              if p = .water then w.controls.waterRate.val
              else if p = .oil then w.controls.oilRate.val
              else w.controls.gasRate.val)) = .ok volumes ∧
          Scalar.sum volumes < -total)
  | .thp => s.thp < w.controls.thpLimit.val
  | .none | .grup => False

theorem Violates.mem_visitingOrder {m : ProducerMode}
    (violated : w.Violates t converter constants s m) : m ∈ ProducerMode.visitingOrder := by
  cases m with
  | bhp | orat | wrat | grat | lrat | resv | thp => decide
  | none | grup => cases violated

theorem exceeds_eq_true_iff {m : ProducerMode} :
    w.exceeds t converter constants s m = .ok true ↔ w.Violates t converter constants s m := by
  cases m with
  | bhp | thp | none | grup => simp [exceeds, Violates]
  | orat | wrat | grat | lrat => simp [exceeds, Violates, Outcome.bind_eq_ok]
  | resv =>
    have observed : w.observed = fun p =>
        if p = .water then w.controls.waterRate.val
        else if p = .oil then w.controls.oilRate.val else w.controls.gasRate.val := by
      funext p
      cases p <;> rfl
    cases predicted : w.controls.prediction with
    | true => simp [exceeds, Violates, reservoirLimit, predicted, Outcome.bind_eq_ok]
    | false => simp [exceeds, Violates, reservoirLimit, predicted, observed, Outcome.bind_eq_ok]

end Producer

namespace Well

/-- The modes that stand for limits of the well's own, in the order in which they count. -/
def visited : Well α → List (InjectorMode ⊕ ProducerMode)
  | .injector _ => [.inl .bhp, .inl .rate, .inl .resv, .inl .thp]
  | .producer _ =>
    [.inr .bhp, .inr .orat, .inr .wrat, .inr .grat, .inr .lrat, .inr .resv, .inr .thp]

def runOn (w : Well α) (m : InjectorMode ⊕ ProducerMode) (s : WellState α) : WellState α :=
  match w, m with
  | .injector _, .inl m => { s with injectionControl := m }
  | .producer _, .inr m => { s with productionControl := m }
  | .injector _, .inr _ | .producer _, .inl _ => s

variable {w : Well α} {m m' : InjectorMode ⊕ ProducerMode} {s : WellState α}

theorem runOn_mode : w.runOn (w.mode s) s = s := by
  cases w <;> rfl

theorem mode_runOn (own : m ∈ w.limitModes) : w.mode (w.runOn m s) = m := by
  cases w with
  | injector w =>
    obtain ⟨_, _, rfl⟩ := List.mem_map.1 own
    rfl
  | producer w =>
    obtain ⟨_, _, rfl⟩ := List.mem_map.1 own
    rfl

theorem runOn_runOn (own : m ∈ w.limitModes) : w.runOn m (w.runOn m' s) = w.runOn m s := by
  cases w with
  | injector w =>
    obtain ⟨_, _, rfl⟩ := List.mem_map.1 own
    cases m' <;> rfl
  | producer w =>
    obtain ⟨_, _, rfl⟩ := List.mem_map.1 own
    cases m' <;> rfl

end Well

namespace Evaluator
variable {e : Evaluator α} {constants : Constants α} {s : WellState α}
  {m first second : InjectorMode ⊕ ProducerMode} {rest : List (InjectorMode ⊕ ProducerMode)}

/-! ## Exceeded limits -/

/-- Whether a limit of the well is exceeded, whatever its control mode. -/
def exceedsLimit (e : Evaluator α) (constants : Constants α) (s : WellState α) :
    InjectorMode ⊕ ProducerMode → Outcome α Bool :=
  match e.well with
  | .injector w => Sum.elim (w.exceeds e.table s) fun _ => .ok false
  | .producer w => Sum.elim (fun _ => .ok false) (w.exceeds e.table e.converter constants s)

/-- The well violates a limit that its controls list. -/
inductive Violates (e : Evaluator α) (constants : Constants α) (s : WellState α) :
    InjectorMode ⊕ ProducerMode → Prop
  | injector {w : Injector α} {m : InjectorMode} (well : e.well = .injector w)
      (enabled : m ∈ w.controls.modes) (violated : w.Violates e.table s m) :
      Violates e constants s (.inl m)
  | producer {w : Producer α} {m : ProducerMode} (well : e.well = .producer w)
      (enabled : m ∈ w.controls.modes)
      (violated : w.Violates e.table e.converter constants s m) : Violates e constants s (.inr m)

def LimitsRead (e : Evaluator α) (constants : Constants α) (s : WellState α) : Prop :=
  ∀ m ∈ e.well.limitModes, ∃ answer, e.exceedsLimit constants s m = .ok answer

/-- The limits that the well exceeds, in the order they are visited. -/
def exceededLimits (e : Evaluator α) (constants : Constants α) (s : WellState α) :
    List (InjectorMode ⊕ ProducerMode) :=
  e.well.limitModes.filter fun m => Outcome.affirms (e.exceedsLimit constants s m)

/-- Pressures and rates that fit can be checked against all limits, unless the phase of a mixture or
an undefined region is asked for. -/
theorem limitsRead_of_fits {c : FormationVolume α} (table : e.table = c.table)
    (converter : e.converter = c.converter) (fits : s.Fits c.table)
    (unmixed : ∀ w, e.well = .injector w → w.controls.fluid ≠ .multi)
    (defined : ∃ r, c.region constants.fipRegion e.well.header.pvtRegion = .ok r) :
    e.LimitsRead constants s := by
  intro m own
  cases read : e.exceedsLimit constants s m with
  | ok answer => exact ⟨answer, rfl⟩
  | error fault =>
    exfalso
    cases well : e.well with
    | injector w =>
      rw [well] at own
      obtain ⟨m, -, rfl⟩ := List.mem_map.1 own
      simp only [exceedsLimit, well, Sum.elim_inl, table] at read
      exact unmixed w well (Injector.phase_eq_error (Injector.exceeds_eq_error fits read)).1
    | producer w =>
      rw [well] at own
      obtain ⟨m, -, rfl⟩ := List.mem_map.1 own
      simp only [exceedsLimit, well, Sum.elim_inr, table, converter] at read
      obtain ⟨r, defined⟩ := defined
      rw [well] at defined
      cases defined.symm.trans (Producer.exceeds_eq_error fits read)

/-- The control mode is not looked at. -/
theorem exceedsLimit_runOn :
    e.exceedsLimit constants (e.well.runOn m s) = e.exceedsLimit constants s := by
  have exceeds_injector (w : Injector α) (mode : InjectorMode) :
      w.exceeds e.table { s with injectionControl := mode } = w.exceeds e.table s := by
    funext m
    cases m <;> rfl
  have exceeds_producer (w : Producer α) (mode : ProducerMode) :
      w.exceeds e.table e.converter constants { s with productionControl := mode } =
        w.exceeds e.table e.converter constants s := by
    funext m
    cases m <;> rfl
  cases well : e.well with
  | injector w =>
    cases m with
    | inl m => simp only [exceedsLimit, well, Well.runOn, exceeds_injector]
    | inr m => rfl
  | producer w =>
    cases m with
    | inl m => rfl
    | inr m => simp only [exceedsLimit, well, Well.runOn, exceeds_producer]

theorem LimitsRead.runOn (read : e.LimitsRead constants s) (m : InjectorMode ⊕ ProducerMode) :
    e.LimitsRead constants (e.well.runOn m s) := by
  unfold LimitsRead
  rwa [exceedsLimit_runOn]

@[simp] theorem exceededLimits_runOn :
    e.exceededLimits constants (e.well.runOn m s) = e.exceededLimits constants s := by
  unfold exceededLimits
  rw [exceedsLimit_runOn]

theorem mem_limitModes_of_exceeded (exceeded : m ∈ e.exceededLimits constants s) :
    m ∈ e.well.limitModes :=
  List.mem_of_mem_filter exceeded

/-- The exceeded limits are those that are violated, whatever the control mode. -/
theorem mem_exceededLimits_iff : m ∈ e.exceededLimits constants s ↔ e.Violates constants s m := by
  rw [exceededLimits, List.mem_filter, Outcome.affirms_iff]
  constructor
  · rintro ⟨own, answer⟩
    cases well : e.well with
    | injector w =>
      rw [well] at own
      obtain ⟨m, listed, rfl⟩ := List.mem_map.1 own
      simp only [exceedsLimit, well, Sum.elim_inl] at answer
      exact .injector well (of_decide_eq_true (List.mem_filter.1 listed).2)
        (Injector.exceeds_eq_true_iff.1 answer)
    | producer w =>
      rw [well] at own
      obtain ⟨m, listed, rfl⟩ := List.mem_map.1 own
      simp only [exceedsLimit, well, Sum.elim_inr] at answer
      exact .producer well (of_decide_eq_true (List.mem_filter.1 listed).2)
        (Producer.exceeds_eq_true_iff.1 answer)
  · rintro (⟨well, enabled, violated⟩ | ⟨well, enabled, violated⟩)
    · simp only [exceedsLimit, well, Sum.elim_inl, Injector.exceeds_eq_true_iff]
      exact ⟨List.mem_map_of_mem (List.mem_filter.2
        ⟨violated.mem_visitingOrder, decide_eq_true enabled⟩), violated⟩
    · simp only [exceedsLimit, well, Sum.elim_inr, Producer.exceeds_eq_true_iff]
      exact ⟨List.mem_map_of_mem (List.mem_filter.2
        ⟨violated.mem_visitingOrder, decide_eq_true enabled⟩), violated⟩

/-- They come in the order in which they are visited. -/
theorem sublist_exceededLimits : (e.exceededLimits constants s).Sublist e.well.visited := by
  refine List.Sublist.trans List.filter_sublist ?_
  cases e.well with
  | injector w => exact List.Sublist.map Sum.inl List.filter_sublist
  | producer w => exact List.Sublist.map Sum.inr List.filter_sublist

theorem nodup_exceededLimits : (e.exceededLimits constants s).Nodup := by
  refine List.Nodup.filter _ ?_
  cases e.well with
  | injector w => exact List.Nodup.map (fun _ _ => Sum.inl.inj) (List.Nodup.filter _ (by decide))
  | producer w => exact List.Nodup.map (fun _ _ => Sum.inr.inj) (List.Nodup.filter _ (by decide))

theorem ne_of_several (several : e.exceededLimits constants s = first :: second :: rest) :
    first ≠ second := by
  have distinct : (first :: second :: rest).Nodup := several ▸ nodup_exceededLimits
  exact List.ne_of_not_mem_cons (List.nodup_cons.1 distinct).1

/-! ## Calls -/

def nextMode (e : Evaluator α) (constants : Constants α) (s : WellState α) :
    Option (InjectorMode ⊕ ProducerMode) :=
  (e.exceededLimits constants s).find? (· ≠ e.well.mode s)

theorem individualSwitch_eq (read : e.LimitsRead constants s) :
    e.individualSwitch constants s =
      .ok ((e.nextMode constants s).map fun m => e.well.runOn m s) := by
  unfold LimitsRead at read
  cases well : e.well with
  | injector w =>
    simp only [well, Well.limitModes, List.forall_mem_map, exceedsLimit, Sum.elim_inl] at read
    simp only [individualSwitch, well, firstExceeded_eq_find? read, nextMode, exceededLimits,
      exceedsLimit, Well.limitModes, List.filter_map, Well.mode,
      find?_map_ne fun _ _ => Sum.inl.inj, Option.map_map]
    rfl
  | producer w =>
    simp only [well, Well.limitModes, List.forall_mem_map, exceedsLimit, Sum.elim_inr] at read
    simp only [individualSwitch, well, firstExceeded_eq_find? read, nextMode, exceededLimits,
      exceedsLimit, Well.limitModes, List.filter_map, Well.mode,
      find?_map_ne fun _ _ => Sum.inr.inj, Option.map_map]
    rfl

def limitCall (e : Evaluator α) (constants : Constants α) (s : WellState α) :
    Outcome α (Bool × WellState α) := do
  let switched ← e.individualSwitch constants s
  return (switched.isSome, switched.getD s)

def limitRun (e : Evaluator α) (constants : Constants α) :
    Nat → WellState α → Outcome α (List (Bool × WellState α))
  | 0, _ => .ok []
  | n + 1, s => do
    let call ← e.limitCall constants s
    return call :: (← e.limitRun constants n call.2)

theorem limitCall_of_next (read : e.LimitsRead constants s)
    (next : e.nextMode constants s = some m) :
    e.limitCall constants s = .ok (true, e.well.runOn m s) := by
  rw [limitCall, individualSwitch_eq read, next]
  rfl

theorem limitCall_of_none (read : e.LimitsRead constants s) (none : e.nextMode constants s = none) :
    e.limitCall constants s = .ok (false, s) := by
  rw [limitCall, individualSwitch_eq read, none]
  rfl

theorem limitRun_of_next (read : e.LimitsRead constants s) (next : e.nextMode constants s = some m)
    (n : Nat) :
    e.limitRun constants (n + 1) s =
      ((true, e.well.runOn m s) :: ·) <$> e.limitRun constants n (e.well.runOn m s) := by
  rw [limitRun, limitCall_of_next read next]
  rfl

/-- A call that does not switch the well changes nothing, and nor do those after it. -/
theorem limitRun_of_none (read : e.LimitsRead constants s) (none : e.nextMode constants s = none)
    (n : Nat) : e.limitRun constants n s = .ok (List.replicate n (false, s)) := by
  induction n with
  | zero => rfl
  | succ n ih =>
    rw [limitRun, limitCall_of_none read none, Outcome.ok_bind, ih]
    rfl

/-! ## Runs -/

theorem nextMode_of_single (single : e.exceededLimits constants s = [m]) :
    e.nextMode constants s = if m = e.well.mode s then none else some m := by
  rw [nextMode, single]
  by_cases current : m = e.well.mode s <;> simp [current]

/-- The second of the exceeded limits is visited only from the first. -/
theorem nextMode_of_several (several : e.exceededLimits constants s = first :: second :: rest) :
    e.nextMode constants s = if first = e.well.mode s then some second else some first := by
  have different := ne_of_several several
  rw [nextMode, several]
  by_cases current : first = e.well.mode s
  · rw [if_pos current, List.find?_cons_of_neg (by simp [current]),
      List.find?_cons_of_pos (by simpa [← current] using different.symm)]
  · rw [if_neg current, List.find?_cons_of_pos (by simpa using current)]

/-- Each of two modes is where a call goes from the other, so calls go to and fro. -/
theorem limitRun_by_turns (read : e.LimitsRead constants s) (ownFirst : first ∈ e.well.limitModes)
    (ownSecond : second ∈ e.well.limitModes)
    (back : e.nextMode constants (e.well.runOn second s) = some first)
    (forth : e.nextMode constants (e.well.runOn first s) = some second) (n : Nat) :
    e.limitRun constants n (e.well.runOn second s) =
      .ok ((alternate first second n).map fun m => (true, e.well.runOn m s)) := by
  induction n generalizing first second with
  | zero => rfl
  | succ n ih =>
    rw [limitRun_of_next (read.runOn second) back, Well.runOn_runOn ownFirst,
      ih ownSecond ownFirst forth back]
    rfl

theorem limitRun_of_several (read : e.LimitsRead constants s)
    (several : e.exceededLimits constants s = first :: second :: rest) (n : Nat) :
    e.limitRun constants n s = .ok ((if first = e.well.mode s then alternate second first n
      else alternate first second n).map fun m => (true, e.well.runOn m s)) := by
  have ownFirst : first ∈ e.well.limitModes :=
    mem_limitModes_of_exceeded (several ▸ List.mem_cons_self)
  have ownSecond : second ∈ e.well.limitModes :=
    mem_limitModes_of_exceeded (several ▸ List.mem_cons_of_mem _ List.mem_cons_self)
  -- From either of the two limits a call goes to the other one, so it matters only which of them
  -- the first call goes to.
  have forth : e.nextMode constants (e.well.runOn first s) = some second := by
    rw [nextMode_of_several (by rwa [exceededLimits_runOn]), Well.mode_runOn ownFirst, if_pos rfl]
  have back : e.nextMode constants (e.well.runOn second s) = some first := by
    rw [nextMode_of_several (by rwa [exceededLimits_runOn]), Well.mode_runOn ownSecond,
      if_neg (ne_of_several several)]
  have next := nextMode_of_several several
  cases n with
  | zero => split <;> rfl
  | succ n =>
    by_cases current : first = e.well.mode s
    · rw [if_pos current] at next ⊢
      rw [limitRun_of_next read next, limitRun_by_turns read ownFirst ownSecond back forth]
      rfl
    · rw [if_neg current] at next ⊢
      rw [limitRun_of_next read next, limitRun_by_turns read ownSecond ownFirst forth back]
      rfl

/-- How calls of the check go on pressures and rates that do not change. -/
structure LimitRuns (e : Evaluator α) (constants : Constants α) (s : WellState α) : Prop where
  /-- The exceeded limits are those that the pressures and rates violate, in the order of visits. -/
  violated : ∀ m, m ∈ e.exceededLimits constants s ↔ e.Violates constants s m
  visited : (e.exceededLimits constants s).Sublist e.well.visited
  /-- A call goes to the first exceeded limit that the well does not run on. -/
  call : e.limitCall constants s =
    match (e.exceededLimits constants s).find? (· ≠ e.well.mode s) with
    | some m => .ok (true, e.well.runOn m s)
    | none => .ok (false, s)
  keeps : e.exceededLimits constants s = [] →
    ∀ n, e.limitRun constants n s = .ok (List.replicate n (false, s))
  /-- At most the first call switches the well. -/
  settles : ∀ m, e.exceededLimits constants s = [m] → ∀ n,
    e.limitRun constants (n + 1) s = .ok ((decide (m ≠ e.well.mode s), e.well.runOn m s) ::
      List.replicate n (false, e.well.runOn m s))
  /-- Every call switches the well, the first one to the first limit unless the well runs on it. -/
  alternates : ∀ first second rest, e.exceededLimits constants s = first :: second :: rest → ∀ n,
    e.limitRun constants n s = .ok ((if first = e.well.mode s then alternate second first n
      else alternate first second n).map fun m => (true, e.well.runOn m s))

theorem limitRuns (read : e.LimitsRead constants s) : e.LimitRuns constants s where
  violated _ := mem_exceededLimits_iff
  visited := sublist_exceededLimits
  call := by
    cases next : (e.exceededLimits constants s).find? (· ≠ e.well.mode s) with
    | none => exact limitCall_of_none read next
    | some m => exact limitCall_of_next read next
  keeps kept n := by
    refine limitRun_of_none read ?_ n
    rw [nextMode, kept]
    rfl
  settles m single n := by
    have own : m ∈ e.well.limitModes :=
      mem_limitModes_of_exceeded (single ▸ List.mem_cons_self)
    have settled : e.nextMode constants (e.well.runOn m s) = none := by
      rw [nextMode_of_single (by rwa [exceededLimits_runOn]), Well.mode_runOn own, if_pos rfl]
    have next := nextMode_of_single single
    by_cases current : m = e.well.mode s
    · -- The well runs on its only exceeded limit already, so no call switches it.
      rw [if_pos current] at next
      rw [limitRun_of_none read next, current, Well.runOn_mode, decide_eq_false (by simp)]
      rfl
    · rw [if_neg current] at next
      rw [limitRun_of_next read next, limitRun_of_none (read.runOn m) settled,
        decide_eq_true current]
      rfl
  alternates _ _ _ several n := limitRun_of_several read several n

end Evaluator

/-- A session that checks a well's own limits answers as the call does, and keeps the state that the
call leaves. -/
theorem Session.checkIndividual_eq {s : Session α} {label : String} {e : Evaluator α}
    {state : WellState α} (found : s.evaluator label = .ok e)
    (listed : s.world.states.get? label = some state) :
    (fun (switched, after) => (switched, after.world.states.get? label)) <$>
        s.checkIndividual label =
      (fun (switched, left) => (switched, some left)) <$>
        e.limitCall s.world.constants state := by
  simp only [checkIndividual, switch, found, Outcome.ok_bind, WellStates.state_eq_ok.2 listed,
    Evaluator.limitCall]
  cases e.individualSwitch s.world.constants state with
  | error fault => rfl
  | ok switched =>
    cases switched with
    | none => exact congrArg (fun left => Except.ok (false, left)) listed
    | some left =>
      have kept : (s.world.states.adjust label fun _ => left).get? label = some left := by
        simp [Catalog.adjust, Catalog.get?_mapValues, listed]
      exact congrArg (fun left => Except.ok (true, left)) kept

section Following

def Producer.following : Producer ℚ :=
  { Producer.plain "P" "G" with
    controls :=
      { ProductionControls.free with
        modes := [.resv, .orat], oilRate := ⟨10, by decide⟩, prediction := false } }

def Injector.pressed : Injector ℚ :=
  { WellHeader.plain "I" "G" with
    controls :=
      { InjectionControls.free .water with
        modes := [.thp, .rate, .bhp],
        surfaceRate := ⟨10, by decide⟩, thpLimit := ⟨10, by decide⟩ } }

/-- The producer flows at 25, where 10 was observed, which makes 20 in the reservoir.  The injector
runs on the second of the limits that it exceeds. -/
theorem following_to_and_fro :
    let e (well : Well ℚ) : Evaluator ℚ :=
      { Evaluator.plain well with converter := FormationVolume.doubled.converter }
    let produced : WellState ℚ :=
      { WellState.flowing "P" (0, -25, 0) [] with potentials := some (.ofList [0, -25, 0]) }
    let injected : WellState ℚ :=
      { WellState.flowing "I" (25, 0, 0) [] with
        potentials := some (.ofList [25, 0, 0]), thp := 25, injectionControl := .thp }
    let producer := e (.producer .following)
    let injector := e (.injector .pressed)
    (producer.LimitsRead .standard produced ∧
      producer.exceededLimits .standard produced = [.inr .orat, .inr .resv] ∧
      producer.LimitRuns .standard produced) ∧
    injector.LimitsRead .standard injected ∧
      injector.exceededLimits .standard injected = [.inl .rate, .inl .thp] ∧
      injector.LimitRuns .standard injected := by
  intro e produced injected producer injector
  have fitsProduced : produced.Fits .blackOil := ⟨rfl, rfl, ⟨_, rfl, rfl⟩, ⟨_, rfl⟩⟩
  have fitsInjected : injected.Fits .blackOil := ⟨rfl, rfl, ⟨_, rfl, rfl⟩, ⟨_, rfl⟩⟩
  have readProduced : producer.LimitsRead .standard produced :=
    Evaluator.limitsRead_of_fits rfl rfl fitsProduced (fun _ other => by cases other) ⟨_, rfl⟩
  have readInjected : injector.LimitsRead .standard injected := by
    refine Evaluator.limitsRead_of_fits rfl rfl fitsInjected ?_ ⟨_, rfl⟩
    intro w well
    cases Well.injector.inj well
    decide
  exact ⟨⟨readProduced, by decide +kernel, Evaluator.limitRuns readProduced⟩,
    readInjected, by decide +kernel, Evaluator.limitRuns readInjected⟩

end Following
end WellControl
