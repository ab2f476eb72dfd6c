import WellControl.Proofs.Economic.Candidates
import WellControl.Proofs.Economic.Verdicts

/-! # Closing one completion after the other

A producer whose workover closes the worst completion is reviewed again and again, in whatever
states.  Where closed completions do not flow, none of them is the worst again, so each review that
finds a ratio limit violated closes a further completion: the completions that are open count down
(`Producer.openCompletions`), and with the last of them the well is closed. -/
set_option autoImplicit false

namespace WellControl

/-! ## Completions that do not flow -/

theorem Rates.addPart_zero {xs ys : List ℚ} {part : Grid ℚ} (xsZero : ∀ x ∈ xs, x = 0)
    (partZero : ∀ y ∈ part.entries, y = 0) (added : addPart xs part = .ok ys) :
    ∀ z ∈ ys, z = 0 := by
  unfold addPart at added
  split at added
  · unfold add at added
    split at added
    · rename_i y single
      cases added
      intro z listed
      obtain ⟨x, among, rfl⟩ := List.mem_map.1 listed
      rw [xsZero x among, partZero y (single ▸ List.mem_singleton_self y), add_zero]
    · split at added
      · cases added
        intro z listed
        obtain ⟨i, inside, rfl⟩ := List.mem_iff_getElem.1 listed
        rw [List.getElem_zipWith, xsZero _ (List.getElem_mem _), partZero _ (List.getElem_mem _),
          add_zero]
      · cases added
  · cases added

namespace RatioSource
variable {r : RatioSource ℚ} {l : EconomicLimits ℚ}

def Dry (r : RatioSource ℚ) (connection : Nat) : Prop :=
  ∀ part, r.state.perforationRates.part? connection = some part → ∀ x ∈ part.entries, x = 0

theorem ownRates_zero {connections : List Nat} (dry : ∀ i ∈ connections, r.Dry i) {rates : List ℚ}
    (own : r.ownRates connections = .ok rates) : ∀ x ∈ rates, x = 0 := by
  refine Outcome.of_foldlM_eq_ok (P := fun total => ∀ x ∈ total, x = 0) ?_ ?_ own
  · intro total total' zero i kept added
    split at added
    · rename_i part found
      exact Rates.addPart_zero zero (dry i (List.mem_filter.1 kept).1 part found) added
    · cases added
  · intro x listed
    exact List.eq_of_mem_replicate listed

end RatioSource

theorem PhaseTable.rate_zero {t : PhaseTable} {rates : List ℚ} (none : ∀ x ∈ rates, x = 0)
    {p : Phase} {x : ℚ} (found : t.rate rates p = .ok x) : x = 0 := by
  obtain ⟨i, _, entry⟩ := Outcome.bind_eq_ok.1 found
  split at entry
  · rename_i y placed
    rw [← Except.ok.inj entry]
    exact none y (List.mem_of_getElem? placed)
  · cases entry

theorem RatioKind.ratio_zero {k : RatioKind} {c : Constants ℚ} {t : PhaseTable} {rates : List ℚ}
    (none : ∀ x ∈ rates, x = 0) {x : ℚ} (computed : k.ratio c t rates = .ok x) : x = 0 := by
  obtain ⟨first, firstFound, later⟩ := Outcome.bind_eq_ok.1 computed
  obtain ⟨second, secondFound, _⟩ := Outcome.bind_eq_ok.1 later
  obtain rfl := PhaseTable.rate_zero none firstFound
  obtain rfl := PhaseTable.rate_zero none secondFound
  rw [ratio_eq_value firstFound secondFound (mul_zero _).ge] at computed
  rw [← Except.ok.inj computed]
  cases k with
  | waterCut => simp [value, cut_eq]
  | gasOil => simp [value, quotient_eq]
  | waterGas => simp [value, quotient_eq]

namespace RatioSource
variable {r : RatioSource ℚ} {l : EconomicLimits ℚ}

theorem extent_of_checkRatios {p p' : RatioProgress ℚ} {notices : Journal}
    (checked : r.checkRatios l p = (.ok (), p', notices)) (violated : p'.report.violated = true) :
    1 < p'.report.extent := by
  unfold checkRatios at checked
  split at checked
  · cases checked
  · rename_i q _
    dsimp only at checked
    by_cases missing : q.report.violated = true ∧
        ¬ (q.report.worst ≠ noCompletion ∧ 1 < q.report.extent)
    · rw [if_pos missing] at checked
      cases checked
    · rw [if_neg missing] at checked
      cases checked
      exact (not_not.1 fun short => missing ⟨violated, short⟩).2

theorem exists_of_worst? {k : Int} (worst : r.worst? l = some k) :
    ∃ cs c, r.candidates l 0 = .ok cs ∧ c ∈ cs ∧ c.completion = k ∧ 1 < c.value := by
  unfold worst? at worst
  split at worst
  · rename_i p notices checked
    split at worst
    · rename_i violated
      have beyond := extent_of_checkRatios checked violated
      obtain ⟨cs, listed, _, report⟩ := checkRatios_report (congrArg Prod.fst checked)
      rw [checked] at report
      change p.report = _ at report
      rw [report] at worst violated beyond
      cases highest : cs.argmax Candidate.value with
      | none =>
        rw [highest] at violated
        cases violated
      | some c =>
        rw [highest] at worst beyond
        exact ⟨cs, c, listed, List.argmax_mem highest, Option.some.inj worst, beyond⟩
    · cases worst
  · cases worst

/-- A completion that is reported as the worst has a connection that flows. -/
theorem exists_flowing_of_worst? (serial : r.ownership = .serial) {k : Int}
    (worst : r.worst? l = some k) :
    ∃ connections, (k, connections) ∈ r.well.completions ∧ ∃ i ∈ connections, ¬ r.Dry i := by
  obtain ⟨cs, c, listed, member, rfl, beyond⟩ := exists_of_worst? worst
  obtain ⟨limit, connections, call, x, _, completion, ratio, value⟩ :=
    value_of_mem_candidatesOver listed member
  refine ⟨connections, completion, ?_⟩
  by_contra none
  have dry : ∀ i ∈ connections, r.Dry i := by
    intro i among
    by_contra flows
    exact none ⟨i, among, flows⟩
  obtain ⟨rates, own, ratio⟩ := Outcome.bind_eq_ok.1 ratio
  rw [serial] at ratio
  have zero := RatioKind.ratio_zero (ownRates_zero dry own) ratio
  rw [value, zero, zero_div] at beyond
  exact absurd beyond (not_lt.2 zero_le_one)

theorem exists_worst?_of_exceeds (checked : (r.checkRatios l ⟨.fresh, 0⟩).1 = .ok ())
    {kind : RatioKind} (above : r.exceeds l kind = true) : ∃ k, r.worst? l = some k := by
  obtain ⟨cs, _, found, report⟩ := checkRatios_report checked
  cases highest : cs.argmax Candidate.value with
  | none => exact absurd (List.argmax_eq_none.1 highest) (found kind above)
  | some c =>
    refine ⟨c.completion, ?_⟩
    rcases outcome : r.checkRatios l ⟨.fresh, 0⟩ with ⟨_ | _, p, notices⟩
    · rw [outcome] at checked
      cases checked
    · rw [outcome, highest] at report
      change p.report = _ at report
      rw [worst?_of_checkRatios outcome, report]
      rfl

end RatioSource

/-! ## Reviews in a row -/

/-- A review of a well on a single process: the state it is in, and how the review is made. -/
structure EconomicCall where
  state : WellState ℚ
  table : PhaseTable
  constants : Constants ℚ
  time : ℚ
  writeMessages : Bool

namespace Producer
variable {w : Producer ℚ} {b : Books ℚ} {c : EconomicCall}

def sourceOf (w : Producer ℚ) (c : EconomicCall) : RatioSource ℚ :=
  ⟨w.toWellHeader, c.state, c.table, .serial, c.constants⟩

def settleCall (w : Producer ℚ) (b : Books ℚ) (c : EconomicCall) : Outcome ℚ Unit × Books ℚ :=
  w.settle (w.sourceOf c) c.time c.writeMessages b

def settleAll (w : Producer ℚ) (b : Books ℚ) (calls : List EconomicCall) : Books ℚ :=
  calls.foldl (fun b c => (w.settleCall b c).2) b

/-- Whether a review ends well and comes to a ratio limit that is violated. -/
def worksOver (w : Producer ℚ) (b : Books ℚ) (c : EconomicCall) : Bool :=
  (w.settleCall b c).1.isOk && !b.closures.exempts w.name c.state &&
    !w.violatesRate (w.sourceOf c) && RatioKind.checkingOrder.any ((w.sourceOf c).exceeds w.limits)

def workovers (w : Producer ℚ) : Books ℚ → List EconomicCall → Nat
  | _, [] => 0
  | b, c :: rest => (w.worksOver b c).toNat + workovers w (w.settleCall b c).2 rest

/-- No rate is perforated where a completion is closed. -/
def Drained (w : Producer ℚ) (closures : ClosureRecord ℚ) (c : EconomicCall) : Prop :=
  ∀ d ∈ w.connections, closures.hasCompletion w.name d.completionId = true →
    (w.sourceOf c).Dry d.index

def openCompletions (w : Producer ℚ) (closures : ClosureRecord ℚ) : List Int :=
  (w.completions.map Prod.fst).filter fun k => !closures.hasCompletion w.name k

/-! ### One review -/

theorem anyRatioLimit_of_exceeds {source : RatioSource ℚ} {kind : RatioKind}
    (above : source.exceeds w.limits kind = true) : w.limits.anyRatioLimit = true := by
  obtain ⟨limit, _, active, _⟩ := RatioSource.exceeds_eq_true_iff.1 above
  have on : EconomicLimits.isOn (kind.limit w.limits) = true := Option.isSome_of_eq_some active
  cases kind <;> simp_all [EconomicLimits.anyRatioLimit, RatioKind.limit]

theorem checkRatios_of_review {source : RatioSource ℚ} {closures : ClosureRecord ℚ} {v : Verdict}
    (considered : closures.exempts w.name source.state = false)
    (rated : w.violatesRate source = false) (on : w.limits.anyRatioLimit = true)
    (reviewed : (w.review source closures).verdict = .ok v) :
    (source.checkRatios w.limits ⟨.fresh, 0⟩).1 = .ok () := by
  have any : w.limits.anyLimit = true := by rw [EconomicLimits.anyLimit, on, Bool.or_true]
  have ratios : ∃ notices, (w.reviewRatios source notices).verdict = .ok v := by
    simp only [review, considered, any, Bool.not_true, Bool.or_self, Bool.false_eq_true, if_false,
      reviewRates] at reviewed
    split at reviewed
    · split at reviewed
      · cases reviewed
      · rename_i checked
        cases rated.symm.trans (violatesRate_of_checkRates checked)
      · exact ⟨_, reviewed⟩
    · exact ⟨_, reviewed⟩
  obtain ⟨notices, ratios⟩ := ratios
  rw [reviewRatios, if_pos on] at ratios
  split at ratios
  · cases ratios
  · rename_i checked
    rw [checked]

theorem mem_openCompletions {closures : ClosureRecord ℚ} {k : Int} :
    k ∈ w.openCompletions closures ↔
      k ∈ w.completions.map Prod.fst ∧ closures.hasCompletion w.name k = false := by
  rw [openCompletions, List.mem_filter, Bool.not_eq_true']

/-- Where closed completions do not flow, the worst is an open one. -/
theorem open_of_worst? {closures : ClosureRecord ℚ} (drained : w.Drained closures c) {k : Int}
    (worst : (w.sourceOf c).worst? w.limits = some k) : k ∈ w.openCompletions closures := by
  obtain ⟨connections, completion, i, among, flows⟩ :=
    RatioSource.exists_flowing_of_worst? rfl worst
  refine mem_openCompletions.2 ⟨List.mem_map.2 ⟨_, completion, rfl⟩, ?_⟩
  rw [Bool.eq_false_iff]
  intro closed
  obtain ⟨_, rfl⟩ := mem_completionsOf.1 completion
  obtain ⟨d, kept, rfl⟩ := List.mem_map.1 among
  obtain ⟨listed, own⟩ := List.mem_filter.1 kept
  rw [← of_decide_eq_true own] at closed
  exact flows (drained d listed closed)

/-- A review that comes to a violated ratio limit closes a completion that was open. -/
theorem closes_open_completion (con : w.limits.workover = .con) (drained : w.Drained b.closures c)
    (works : w.worksOver b c = true) :
    b.closures.hasWell w.name (some .economic) = false ∧ ∃ k ∈ w.openCompletions b.closures,
      (w.settleCall b c).2.closures = (w.carryOut c.time b.closures (.closeCompletion k)).1 := by
  simp only [worksOver, Bool.and_eq_true, Bool.not_eq_true', List.any_eq_true] at works
  obtain ⟨⟨⟨returned, considered⟩, rated⟩, kind, _, above⟩ := works
  have settled : (w.settleCall b c).1 = .ok () := by
    cases outcome : (w.settleCall b c).1 with
    | error fault =>
      rw [outcome] at returned
      cases returned
    | ok _ => rfl
  obtain ⟨v, reviewed, _⟩ := settle_eq_ok settled
  have checked := checkRatios_of_review considered rated (anyRatioLimit_of_exceeds above) reviewed
  obtain ⟨k, worst⟩ := RatioSource.exists_worst?_of_exceeds checked above
  constructor
  · rw [ClosureRecord.exempts, Bool.or_eq_false_iff] at considered
    exact considered.2
  · refine ⟨k, open_of_worst? drained worst, ?_⟩
    rw [settleCall, closures_settle considered settled,
      policy_eq_closeCompletion_iff.2 ⟨rated, worst, con⟩]

/-- Closing an open completion adds it to the record, and leaves the well closed if the completions
of all open connections are. -/
theorem carryOut_closeCompletion {closures : ClosureRecord ℚ} (time : ℚ) {k : Int}
    (running : closures.hasWell w.name (some .economic) = false)
    (fresh : closures.hasCompletion w.name k = false) :
    (w.carryOut time closures (.closeCompletion k)).1.completions.entries =
        closures.completions.entries ++ [((w.name, k), time)] ∧
      ((w.carryOut time closures (.closeCompletion k)).1.hasWell w.name (some .economic) = true ↔
        ∀ d ∈ w.openConnections, (w.carryOut time closures (.closeCompletion k)).1.hasCompletion
          w.name d.completionId = true) := by
  constructor
  · have added := (ClosureRecord.adds_closeCompletion w.name k time closures).completions
    rw [fresh] at added
    rw [carryOut]
    split <;> exact added
  · simp only [hasWell_carryOut, hasCompletion_carryOut, running, closes, Bool.false_or,
      List.all_eq_true, Verdict.closeCompletion.injEq, @eq_comm Int k, Bool.or_comm]

theorem openCompletions_carryOut (w : Producer ℚ) (time : ℚ) (closures : ClosureRecord ℚ)
    (k : Int) :
    w.openCompletions (w.carryOut time closures (.closeCompletion k)).1 =
      (w.openCompletions closures).erase k := by
  have distinct : (w.openCompletions closures).Nodup := (nodup_completionsOf w.connections).filter _
  rw [distinct.erase_eq_filter, openCompletions, openCompletions, List.filter_filter]
  apply List.filter_congr
  intro other _
  rw [hasCompletion_carryOut, Bool.not_or, Bool.and_comm]
  by_cases same : other = k
  · simp [same]
  · simp [same, Ne.symm same]

theorem growth_settleCall (w : Producer ℚ) (b : Books ℚ) (c : EconomicCall) :
    b.closures.Growth w.name c.time (w.settleCall b c).2.closures := by
  obtain ⟨_, _, _, _, alike⟩ := w.settle_local (w.sourceOf c) c.time c.writeMessages b.closures
  exact (alike b (.refl _ _)).2.1.growth

theorem openCompletions_settleCall_le (w : Producer ℚ) (b : Books ℚ) (c : EconomicCall) :
    (w.openCompletions (w.settleCall b c).2.closures).length ≤
      (w.openCompletions b.closures).length := by
  apply List.Sublist.length_le
  apply List.monotone_filter_right
  intro k stillOpen
  rw [Bool.not_eq_true', Bool.eq_false_iff] at stillOpen ⊢
  exact fun closed => stillOpen ((w.growth_settleCall b c).hasCompletion_of_hasCompletion closed)

/-- A review that comes to a violated ratio limit leaves one completion less open. -/
theorem openCompletions_settleCall (con : w.limits.workover = .con)
    (drained : w.Drained b.closures c) :
    (w.openCompletions (w.settleCall b c).2.closures).length + (w.worksOver b c).toNat ≤
      (w.openCompletions b.closures).length := by
  cases works : w.worksOver b c with
  | false => exact w.openCompletions_settleCall_le b c
  | true =>
    obtain ⟨_, k, wasOpen, after⟩ := closes_open_completion con drained works
    rw [after, openCompletions_carryOut, List.length_erase_of_mem wasOpen]
    have positive := List.length_pos_of_mem wasOpen
    rw [Bool.toNat_true]
    omega

/-! ### Reviews in a row -/

def DrainedThroughout (w : Producer ℚ) (b : Books ℚ) (calls : List EconomicCall) : Prop :=
  ∀ earlier c later, calls = earlier ++ c :: later → w.Drained (w.settleAll b earlier).closures c

theorem DrainedThroughout.head {rest : List EconomicCall}
    (drained : w.DrainedThroughout b (c :: rest)) : w.Drained b.closures c :=
  drained [] c rest rfl

theorem DrainedThroughout.tail {rest : List EconomicCall}
    (drained : w.DrainedThroughout b (c :: rest)) :
    w.DrainedThroughout (w.settleCall b c).2 rest := by
  intro earlier c' later split
  exact drained (c :: earlier) c' later (by rw [split, List.cons_append])

theorem DrainedThroughout.nil (w : Producer ℚ) (b : Books ℚ) : w.DrainedThroughout b [] := by
  intro earlier c later split
  exact absurd split.symm (List.append_ne_nil_of_right_ne_nil _ (List.cons_ne_nil _ _))

theorem DrainedThroughout.cons {rest : List EconomicCall} (first : w.Drained b.closures c)
    (later : w.DrainedThroughout (w.settleCall b c).2 rest) :
    w.DrainedThroughout b (c :: rest) := by
  intro earlier c' after split
  cases earlier with
  | nil =>
    cases split
    exact first
  | cons c'' earlier =>
    cases split
    exact later earlier c' after rfl

theorem workovers_le (con : w.limits.workover = .con) {calls : List EconomicCall}
    (drained : w.DrainedThroughout b calls) :
    w.workovers b calls ≤ (w.openCompletions b.closures).length := by
  induction calls generalizing b with
  | nil => exact Nat.zero_le _
  | cons c rest ih =>
    have first := openCompletions_settleCall con drained.head
    have later := ih drained.tail
    rw [workovers]
    omega

theorem hasWell_settleAll (calls : List EconomicCall)
    (closed : b.closures.hasWell w.name (some .economic) = true) :
    (w.settleAll b calls).closures.hasWell w.name (some .economic) = true := by
  induction calls generalizing b with
  | nil => exact closed
  | cons c rest ih =>
    apply ih
    exact (w.growth_settleCall b c).hasWell_of_hasWell closed

theorem hasCompletion_of_openCompletions {closures : ClosureRecord ℚ}
    (none : w.openCompletions closures = []) {d : Connection} (listed : d ∈ w.connections) :
    closures.hasCompletion w.name d.completionId = true := by
  by_contra notClosed
  have completion : d.completionId ∈ w.completions.map Prod.fst :=
    List.mem_map.2 ⟨_, mem_completionsOf.2 ⟨⟨d, listed, rfl⟩, rfl⟩, rfl⟩
  have wasOpen := mem_openCompletions.2 ⟨completion, Bool.eq_false_iff.2 notClosed⟩
  rw [none] at wasOpen
  exact absurd wasOpen List.not_mem_nil

/-- Reviews that come to as many violated limits as completions were open close the well. -/
theorem hasWell_of_workovers (con : w.limits.workover = .con) {calls : List EconomicCall}
    (drained : w.DrainedThroughout b calls) (found : 0 < w.workovers b calls)
    (all : w.workovers b calls = (w.openCompletions b.closures).length) :
    (w.settleAll b calls).closures.hasWell w.name (some .economic) = true := by
  induction calls generalizing b with
  | nil => exact absurd found (lt_irrefl 0)
  | cons c rest ih =>
    have first := openCompletions_settleCall con drained.head
    have later := workovers_le con drained.tail
    rw [workovers] at found all
    have allLater : w.workovers (w.settleCall b c).2 rest =
        (w.openCompletions (w.settleCall b c).2.closures).length := by omega
    rcases Nat.eq_zero_or_pos (w.workovers (w.settleCall b c).2 rest) with last | more
    · -- The last of these reviews: it leaves no completion open.
      have works : w.worksOver b c = true := Bool.toNat_eq_one.1 (by
        have bounded := Bool.toNat_le (w.worksOver b c)
        omega)
      obtain ⟨running, k, wasOpen, after⟩ := closes_open_completion con drained.head works
      have none : w.openCompletions (w.settleCall b c).2.closures = [] := by
        apply List.eq_nil_of_length_eq_zero
        omega
      apply hasWell_settleAll rest
      rw [after] at none ⊢
      refine (carryOut_closeCompletion c.time running (mem_openCompletions.1 wasOpen).2).2.2 ?_
      intro d listed
      exact hasCompletion_of_openCompletions none (List.mem_filter.1 listed).1
    · exact ih drained.tail more allLater

/-- Reviews in a row of a producer whose workover closes the worst completion, where closed
completions do not flow.  Each one that comes to a violated ratio limit closes exactly one
completion of the well that was not closed before, and after it the well is closed economically
exactly if the completions of all its open connections are.  There are no more of these than the
well has completions, and if there are as many the well is closed. -/
theorem workovers_close_completions (con : w.limits.workover = .con) {calls : List EconomicCall}
    (drained : w.DrainedThroughout b calls) :
    (∀ earlier c later, calls = earlier ++ c :: later →
      let before := w.settleAll b earlier
      let after := w.settleAll b (earlier ++ [c])
      w.worksOver before c = true →
        (∃ k ∈ w.completions.map Prod.fst, before.closures.hasCompletion w.name k = false ∧
          after.closures.completions.entries =
            before.closures.completions.entries ++ [((w.name, k), c.time)]) ∧
        (after.closures.hasWell w.name (some .economic) = true ↔
          ∀ d ∈ w.openConnections,
            after.closures.hasCompletion w.name d.completionId = true)) ∧
    w.workovers b calls ≤ w.completions.length ∧
    (w.completions ≠ [] → w.workovers b calls = w.completions.length →
      (w.settleAll b calls).closures.hasWell w.name (some .economic) = true) := by
  have bound := workovers_le con drained
  have openOnly : (w.openCompletions b.closures).length ≤ w.completions.length := by
    rw [← List.length_map Prod.fst]
    exact List.length_filter_le _ _
  refine ⟨?_, bound.trans openOnly, ?_⟩
  · intro earlier c later split before after works
    obtain ⟨running, k, wasOpen, carried⟩ :=
      closes_open_completion con (drained earlier c later split) works
    obtain ⟨completion, fresh⟩ := mem_openCompletions.1 wasOpen
    have stepped : after.closures =
        (w.carryOut c.time before.closures (.closeCompletion k)).1 := by
      rw [← carried]
      simp only [after, settleAll, List.foldl_append, List.foldl_cons, List.foldl_nil]
    rw [stepped]
    obtain ⟨entries, plugged⟩ := carryOut_closeCompletion c.time running fresh
    exact ⟨⟨k, completion, fresh, entries⟩, plugged⟩
  · intro connected all
    have positive := List.length_pos_iff.2 connected
    apply hasWell_of_workovers con drained
    · omega
    · omega

/-- The first completion is flooded, then the second. -/
def floods : List EconomicCall :=
  [⟨.flowing "P" (-60, -40, 0) [(-50, -10, 0), (-10, -30, 0)], .blackOil, .standard, 3, true⟩,
    ⟨.flowing "P" (-30, -10, 0) [(0, 0, 0), (-30, -10, 0)], .blackOil, .standard, 5, true⟩]

theorem floods_drained : watered.DrainedThroughout ⟨.empty, [], 0⟩ floods := by
  refine .cons ?_ (.cons ?_ (.nil _ _))
  · intro d _ closed
    cases closed
  · intro d listed closed
    rcases List.mem_pair.1 listed with rfl | rfl
    · intro part found x among
      cases found
      revert x
      decide +kernel
    · exact absurd closed (by decide +kernel)

theorem floods_close_well :
    watered.workovers ⟨.empty, [], 0⟩ floods = watered.completions.length ∧
      (watered.settleAll ⟨.empty, [], 0⟩ floods).closures.hasWell watered.name (some .economic) =
        true := by
  have all : watered.workovers ⟨.empty, [], 0⟩ floods = watered.completions.length := by
    decide +kernel
  exact ⟨all, (workovers_close_completions rfl floods_drained).2.2 (by decide) all⟩

end Producer
end WellControl
