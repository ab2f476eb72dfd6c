import Mathlib.Data.List.MinMax
import WellControl.Proofs.Economic.Consistency

/-! # The worst offender of a ratio check

Every completion of a well is a candidate under every limit that the well exceeds, valued by its
ratio over the limit (`RatioSource.candidates`).  A check keeps two running maxima, the highest
ratio under one limit and the furthest extent over all limits.  Together they come to one: the
report of a check that ends well names the first candidate of the highest value. -/
set_option autoImplicit false

namespace WellControl

/-- A completion under a ratio limit that its well exceeds. -/
structure Candidate (α : Type) where
  kind : RatioKind
  completion : Int
  /-- The ratio of the completion over the limit. -/
  value : α
deriving DecidableEq, Repr

namespace RatioSource
variable {α : Type} [Scalar α]

def reducedRatio (r : RatioSource α) (k : RatioKind) (connections : List Nat) (call : Nat) :
    Outcome α α := do
  let rates ← r.ownRates connections
  let reduced ← r.ownership.reduce call rates
  k.ratio r.constants r.table reduced

/-- The completions under one limit, in their order.  The first reduction made for them is the call
`first`. -/
def candidatesUnder (r : RatioSource α) (k : RatioKind) (limit : α)
    (completions : List (Int × List Nat)) (first : Nat) : Outcome α (List (Candidate α)) :=
  (completions.zipIdx first).mapM fun e => do
    let x ← r.reducedRatio k e.1.2 e.2
    return ⟨k, e.1.1, x / limit⟩

def candidatesOver (r : RatioSource α) (l : EconomicLimits α) :
    List RatioKind → Nat → Outcome α (List (Candidate α))
  | [], _ => .ok []
  | k :: rest, first =>
    match r.exceeds l k, EconomicLimits.active? (k.limit l) with
    | true, some limit => do
      let own ← r.candidatesUnder k limit.val r.well.completions first
      let later ← candidatesOver r l rest (first + r.well.completions.length)
      return own ++ later
    | _, _ => candidatesOver r l rest first

def candidates (r : RatioSource α) (l : EconomicLimits α) (first : Nat) :
    Outcome α (List (Candidate α)) :=
  r.candidatesOver l RatioKind.checkingOrder first

end RatioSource

section Argmax
variable {β : Type} {f : β → ℚ}

theorem argmax_cons_cons (x y : β) (rest : List β) :
    (x :: y :: rest).argmax f = ((if f x < f y then y else x) :: rest).argmax f := by
  by_cases higher : f x < f y <;> simp [List.argmax, List.argAux, higher]

theorem argmax_append (xs ys : List β) :
    (xs ++ ys).argmax f = match xs.argmax f, ys.argmax f with
      | none, found => found
      | found, none => found
      | some x, some y => some (if f x < f y then y else x) := by
  induction ys using List.reverseRecOn with
  | nil => cases highest : xs.argmax f <;> simp [highest]
  | append_singleton ys y ih =>
    rw [← List.append_assoc, List.argmax_concat, List.argmax_concat, ih]
    cases xs.argmax f with
    | none => rfl
    | some x =>
      cases ys.argmax f with
      | none => grind
      | some z => grind

/-- What is below the highest of a list is not needed to find it. -/
theorem argmax_of_argmax_cons {x found : β} {rest : List β}
    (highest : (x :: rest).argmax f = some found) (above : f x < f found) :
    rest.argmax f = some found := by
  rw [List.argmax_cons] at highest
  cases later : rest.argmax f with
  | none =>
    simp only [later, Option.some.injEq] at highest
    subst highest
    exact absurd above (lt_irrefl _)
  | some y =>
    simp only [later] at highest
    split at highest
    · exact highest
    · cases highest
      exact absurd above (lt_irrefl _)

end Argmax

def RatioReport.naming : Option (Candidate ℚ) → RatioReport ℚ
  | some c => ⟨true, c.completion, c.value⟩
  | none => .fresh

def Highest.under (h : Highest ℚ) (k : RatioKind) (limit : ℚ) : Candidate ℚ :=
  ⟨k, h.completion, h.ratio / limit⟩

namespace RatioSource
variable {r : RatioSource ℚ} {l : EconomicLimits ℚ} {k : RatioKind}

/-- The scan of the completions ends at the first of the highest candidates under the limit. -/
theorem highest_eq_argmax {limit : ℚ} (positive : 0 < limit) {completions : List (Int × List Nat)}
    {n m : Nat} {best found : Highest ℚ}
    (scanned : r.highest k completions n best = (.ok found, m)) :
    ∃ cs, r.candidatesUnder k limit completions n = .ok cs ∧ m = n + completions.length ∧
      (best.under k limit :: cs).argmax Candidate.value = some (found.under k limit) := by
  induction completions generalizing n best with
  | nil =>
    cases scanned
    exact ⟨[], rfl, rfl, rfl⟩
  | cons completion rest ih =>
    -- What is highest so far stands in front of the candidates that are still to come.
    obtain ⟨id, connections⟩ := completion
    simp only [highest] at scanned
    split at scanned
    · cases scanned
    rename_i rates own
    split at scanned
    · cases scanned
    rename_i x reduced
    obtain ⟨cs, later, counted, first⟩ := ih scanned
    have computed : r.reducedRatio k connections n = .ok x := by
      rw [reducedRatio, own, Outcome.ok_bind]
      exact reduced
    refine ⟨⟨k, id, x / limit⟩ :: cs, ?_, ?_, ?_⟩
    · rw [candidatesUnder, List.zipIdx_cons, Outcome.mapM_cons_eq_ok]
      exact ⟨_, cs, by rw [computed]; rfl, later, rfl⟩
    · rw [counted, List.length_cons]
      omega
    · rw [argmax_cons_cons, ← first]
      congr 2
      simp only [Highest.under, div_lt_div_iff_of_pos_right positive]
      split <;> rfl

theorem enter_eq_ok {limit : ℚ} {best : Highest ℚ} {report entered : RatioReport ℚ}
    (ok : enter report limit best = .ok entered) :
    1 < best.ratio / limit ∧
      entered = if report.extent < best.ratio / limit then
        { report with worst := best.completion, extent := best.ratio / limit } else report := by
  unfold enter at ok
  split at ok
  · rename_i met
    refine ⟨met.2.2, ?_⟩
    split at ok
    · rename_i further
      rw [if_pos further]
      exact (Except.ok.inj ok).symm
    · rename_i behind
      rw [if_neg behind]
      exact (Except.ok.inj ok).symm
  · cases ok

theorem enter_naming {limit : ℚ} {best : Highest ℚ} {cs own : List (Candidate ℚ)}
    {entered : RatioReport ℚ}
    (ok : enter { RatioReport.naming (cs.argmax Candidate.value) with violated := true } limit
      best = .ok entered)
    (first : own.argmax Candidate.value = some (best.under k limit)) :
    entered = .naming ((cs ++ own).argmax Candidate.value) := by
  obtain ⟨beyond, rfl⟩ := enter_eq_ok ok
  rw [argmax_append, first]
  cases cs.argmax Candidate.value with
  | none =>
    have further : (RatioReport.fresh : RatioReport ℚ).extent < best.ratio / limit :=
      one_pos.trans beyond
    exact if_pos further
  | some c =>
    by_cases further : c.value < best.ratio / limit
    · simp only [RatioReport.naming, Highest.under, further, ↓reduceIte]
    · simp only [RatioReport.naming, Highest.under, further, ↓reduceIte]

theorem checkCompletions_report {limit : ℚ} (positive : 0 < limit) {cs : List (Candidate ℚ)}
    {n : Nat} {p : RatioProgress ℚ}
    (checked : r.checkCompletions k limit
      ⟨{ RatioReport.naming (cs.argmax Candidate.value) with violated := true }, n⟩ = (.ok (), p)) :
    ∃ own, r.candidatesUnder k limit r.well.completions n = .ok own ∧ own ≠ [] ∧
      p = ⟨.naming ((cs ++ own).argmax Candidate.value), n + r.well.completions.length⟩ := by
  unfold checkCompletions at checked
  split at checked
  · cases checked
  split at checked
  · cases checked
  split at checked
  · cases checked
  rename_i best m scanned
  obtain ⟨own, listed, rfl, first⟩ := highest_eq_argmax positive scanned
  split at checked
  · cases checked
  rename_i report entered
  -- The scan starts below every limit, so what it found is a candidate.
  have start : (Highest.under ⟨noCompletion, 0⟩ k limit).value < (best.under k limit).value := by
    rw [Highest.under, zero_div]
    exact one_pos.trans (enter_eq_ok entered).1
  have found := argmax_of_argmax_cons first start
  obtain rfl := enter_naming entered found
  cases checked
  refine ⟨own, listed, ?_, rfl⟩
  rintro rfl
  cases found

/-- The report after some of the limits names the first of the highest candidates under them. -/
theorem checkLimits_report {kinds : List RatioKind} {cs : List (Candidate ℚ)} {n : Nat}
    {p : RatioProgress ℚ}
    (checked : r.checkLimits l kinds ⟨.naming (cs.argmax Candidate.value), n⟩ = (.ok (), p)) :
    ∃ more, r.candidatesOver l kinds n = .ok more ∧
      (∀ k ∈ kinds, r.exceeds l k = true → more ≠ []) ∧
      p.report = .naming ((cs ++ more).argmax Candidate.value) := by
  induction kinds generalizing cs n with
  | nil =>
    cases checked
    exact ⟨[], rfl, fun k listed => absurd listed List.not_mem_nil, by rw [List.append_nil]⟩
  | cons k rest ih =>
    cases above : r.exceeds l k with
    | true =>
      obtain ⟨limit, _, active, _⟩ := exceeds_eq_true_iff.1 above
      have on : EconomicLimits.isOn (k.limit l) = true := Option.isSome_of_eq_some active
      have positive : 0 < limit.val := of_decide_eq_true (Option.filter_eq_some_iff.1 active).2
      rw [checkLimits, if_pos on, checkLimit_of_exceeds active above] at checked
      split at checked
      · cases checked
      rename_i p' completed
      obtain ⟨own, listed, found, rfl⟩ := checkCompletions_report positive completed
      obtain ⟨more, later, _, report⟩ := ih checked
      refine ⟨own ++ more, ?_, fun _ _ _ => List.append_ne_nil_of_left_ne_nil found more, ?_⟩
      · simp only [candidatesOver, above, active, listed, later, Outcome.ok_bind,
          Outcome.pure_eq_ok]
      · rw [report, List.append_assoc]
    | false =>
      have unchanged : r.checkLimits l rest ⟨.naming (cs.argmax Candidate.value), n⟩ =
          (.ok (), p) := by
        rw [checkLimits, checkLimit_of_not_exceeds above] at checked
        split at checked
        · cases outcome : r.wellOutcome l k with
          | error fault =>
            rw [outcome] at checked
            cases checked
          | ok _ =>
            rw [outcome] at checked
            exact checked
        · exact checked
      obtain ⟨more, listed, found, report⟩ := ih unchanged
      refine ⟨more, ?_, ?_, report⟩
      · simp only [candidatesOver, above, listed]
      · intro k' among above'
        rcases List.mem_cons.1 among with rfl | later
        · rw [above] at above'
          cases above'
        · exact found k' later above'

theorem checkRatios_report {n : Nat} (checked : (r.checkRatios l ⟨.fresh, n⟩).1 = .ok ()) :
    ∃ cs, r.candidates l n = .ok cs ∧ (∀ k, r.exceeds l k = true → cs ≠ []) ∧
      (r.checkRatios l ⟨.fresh, n⟩).2.1.report = .naming (cs.argmax Candidate.value) := by
  rw [checkRatios_progress]
  unfold checkRatios at checked
  split at checked
  · cases checked
  rename_i p limits
  obtain ⟨cs, listed, found, report⟩ :=
    @checkLimits_report r l RatioKind.checkingOrder [] n p limits
  refine ⟨cs, listed, fun k => found k ?_, by rw [limits]; exact report⟩
  cases k <;> decide

section Members
variable {α : Type} [Scalar α] {r : RatioSource α} {l : EconomicLimits α}

theorem candidatesUnder_pairs {k : RatioKind} {limit : α} {completions : List (Int × List Nat)}
    {n : Nat} {cs : List (Candidate α)}
    (listed : r.candidatesUnder k limit completions n = .ok cs) :
    cs.map (fun c => (c.kind, c.completion)) = completions.map fun e => (k, e.1) := by
  have named : ∀ (e : (Int × List Nat) × Nat) (c : Candidate α),
      (do let x ← r.reducedRatio k e.1.2 e.2; return ⟨k, e.1.1, x / limit⟩) = Except.ok c →
        (c.kind, c.completion) = (k, e.1.1) := by
    intro e c computed
    obtain ⟨x, _, built⟩ := Outcome.bind_eq_ok.1 computed
    cases built
    rfl
  calc cs.map (fun c => (c.kind, c.completion))
      = (completions.zipIdx n).map (fun e => (k, e.1.1)) := Outcome.map_eq_of_mapM listed named
    _ = ((completions.zipIdx n).map Prod.fst).map (fun e => (k, e.1)) := by rw [List.map_map]; rfl
    _ = completions.map (fun e => (k, e.1)) := by rw [List.zipIdx_map_fst]

theorem candidatesOver_cons {k : RatioKind} {rest : List RatioKind} {n : Nat}
    {cs : List (Candidate α)} (listed : r.candidatesOver l (k :: rest) n = .ok cs) :
    (r.exceeds l k = false ∧ r.candidatesOver l rest n = .ok cs) ∨
      ∃ limit own later, r.exceeds l k = true ∧
        EconomicLimits.active? (k.limit l) = some limit ∧
        r.candidatesUnder k limit.val r.well.completions n = .ok own ∧
        r.candidatesOver l rest (n + r.well.completions.length) = .ok later ∧
        own ++ later = cs := by
  cases above : r.exceeds l k with
  | false =>
    simp only [candidatesOver, above] at listed
    exact .inl ⟨rfl, listed⟩
  | true =>
    obtain ⟨limit, _, active, _⟩ := exceeds_eq_true_iff.1 above
    simp only [candidatesOver, above, active] at listed
    obtain ⟨own, listedOwn, listed⟩ := Outcome.bind_eq_ok.1 listed
    obtain ⟨later, listedLater, joined⟩ := Outcome.bind_eq_ok.1 listed
    exact .inr ⟨limit, own, later, rfl, active, listedOwn, listedLater, Except.ok.inj joined⟩

/-- The candidates are all pairs of a limit that the well exceeds and a completion. -/
theorem candidatesOver_pairs {kinds : List RatioKind} {n : Nat} {cs : List (Candidate α)}
    (listed : r.candidatesOver l kinds n = .ok cs) :
    cs.map (fun c => (c.kind, c.completion)) =
      (kinds.filter (r.exceeds l)).flatMap fun k => r.well.completions.map fun e => (k, e.1) := by
  induction kinds generalizing n cs with
  | nil =>
    cases listed
    rfl
  | cons k rest ih =>
    rcases candidatesOver_cons listed with ⟨within, later⟩ |
      ⟨limit, own, later, above, _, listedOwn, listedLater, rfl⟩
    · rw [ih later, List.filter_cons, within]
      rfl
    · rw [List.map_append, candidatesUnder_pairs listedOwn, ih listedLater, List.filter_cons,
        if_pos above, List.flatMap_cons]

theorem value_of_mem_candidatesOver {kinds : List RatioKind} {n : Nat} {cs : List (Candidate α)}
    (listed : r.candidatesOver l kinds n = .ok cs) {c : Candidate α} (member : c ∈ cs) :
    ∃ limit connections call x, EconomicLimits.active? (c.kind.limit l) = some limit ∧
      (c.completion, connections) ∈ r.well.completions ∧
      r.reducedRatio c.kind connections call = .ok x ∧ c.value = x / limit.val := by
  induction kinds generalizing n cs with
  | nil =>
    cases listed
    exact absurd member List.not_mem_nil
  | cons k rest ih =>
    rcases candidatesOver_cons listed with ⟨_, later⟩ |
      ⟨limit, own, later, _, active, listedOwn, listedLater, rfl⟩
    · exact ih later member
    · rcases List.mem_append.1 member with first | second
      · obtain ⟨⟨⟨id, connections⟩, call⟩, numbered, computed⟩ :=
          Outcome.exists_of_mem_mapM listedOwn first
        obtain ⟨x, ratio, built⟩ := Outcome.bind_eq_ok.1 computed
        cases built
        exact ⟨limit, connections, call, x, active, List.fst_mem_of_mem_zipIdx numbered, ratio, rfl⟩
      · exact ih listedLater second

end Members

/-- What a check of the ratios reports, unless it fails: whether there are candidates, and of these
the first of the highest value, in the order of the limits and under one limit in the order of the
completions.  Without candidates the report stays fresh. -/
theorem checkRatios_names_worst {n : Nat} (checked : (r.checkRatios l ⟨.fresh, n⟩).1 = .ok ()) :
    let report := (r.checkRatios l ⟨.fresh, n⟩).2.1.report
    ∃ cs, r.candidates l n = .ok cs ∧
      (cs.map fun c => (c.kind, c.completion)) =
        (RatioKind.checkingOrder.filter (r.exceeds l)).flatMap
          (fun k => r.well.completions.map fun e => (k, e.1)) ∧
      (report.violated = true ↔ ∃ c, c ∈ cs) ∧
      (report.violated = true → ∃ c ∈ cs,
        report.worst = c.completion ∧ report.extent = c.value ∧ (∀ d ∈ cs, d.value ≤ c.value) ∧
        ∀ d ∈ cs, d.value = c.value → cs.idxOf c ≤ cs.idxOf d) ∧
      (report.violated = false → report = .fresh) := by
  intro report
  obtain ⟨cs, listed, _, named⟩ := checkRatios_report checked
  change report = _ at named
  refine ⟨cs, listed, candidatesOver_pairs listed, ?_⟩
  rw [named]
  cases highest : cs.argmax Candidate.value with
  | none =>
    obtain rfl := List.argmax_eq_none.1 highest
    simp [RatioReport.naming, RatioReport.fresh]
  | some c =>
    obtain ⟨member, above, first⟩ := List.argmax_eq_some_iff.1 highest
    refine ⟨⟨fun _ => ⟨c, member⟩, fun _ => rfl⟩, fun _ => ⟨c, member, rfl, rfl, above, ?_⟩, ?_⟩
    · intro d listed' same
      exact first d listed' same.ge
    · intro quiet
      cases quiet

/-- A well above the limits on its water cut and on its gas, where the second completion ties with
the first. -/
def tiedSource : RatioSource ℚ :=
  { halvedSource with state := .flowing "P" (-30, -20, -90) [(0, -10, -45), (-30, -10, -45)] }

def tiedLimits : EconomicLimits ℚ :=
  { EconomicLimits.halfWater with maxGasOilRatio := some ⟨3, by decide +kernel⟩ }

theorem tied_names_worst :
    (tiedSource.checkRatios tiedLimits ⟨.fresh, 0⟩).1 = .ok () ∧
      ∃ cs, tiedSource.candidates tiedLimits 0 = .ok cs ∧
        ∃ c ∈ cs, (c.completion, c.value) = (-2, 3 / 2) ∧ (∀ d ∈ cs, d.value ≤ c.value) ∧
          ∀ d ∈ cs, d.value = c.value → cs.idxOf c ≤ cs.idxOf d := by
  have checked : (tiedSource.checkRatios tiedLimits ⟨.fresh, 0⟩).1 = .ok () := by decide +kernel
  have report : (tiedSource.checkRatios tiedLimits ⟨.fresh, 0⟩).2.1.report =
      ⟨true, -2, 3 / 2⟩ := by decide +kernel
  obtain ⟨cs, listed, _, _, named, _⟩ := checkRatios_names_worst checked
  rw [report] at named
  obtain ⟨c, member, worst, extent, above, first⟩ := named rfl
  exact ⟨checked, cs, listed, c, member, by rw [← worst, ← extent], above, first⟩

end RatioSource

end WellControl
