import Mathlib.Data.List.Induction
import Mathlib.Data.Nat.Find
import WellControl.Proofs.Closure.Growth

/-! # The record as a history of calls

What a record holds is told by the calls that were made on it: a closure is listed exactly if it was
closed after it was last reopened, with the time of the first call that did so, and the closures
stand in the order of these calls (`ClosureEffect.Records`).  One view serves both catalogs of a
record, that of the wells and that of the completions; the queries of a record answer from them
(`ClosureRecord.recounts_play`), and so do the answers of the calls
(`ClosureRecord.history_of_calls`). -/
set_option autoImplicit false

namespace WellControl

theorem Catalog.fst_insertNew {κ ν : Type} [DecidableEq κ] (c : Catalog κ ν) (k : κ) (x : ν) :
    (c.insertNew k x).1 = true ↔ k ∉ c.keys := by
  unfold insertNew
  split <;> simp_all

/-- The effect of calls on one catalog: the entry that a call closes, and the keys it reopens. -/
structure ClosureEffect (ω κ ν : Type) where
  closing? : ω → Option (κ × ν)
  reopens : ω → κ → Bool
  apart : ∀ {call k x}, closing? call = some (k, x) → ∀ k', reopens call k' = false

namespace ClosureEffect
variable {ω κ ν : Type} {f : ClosureEffect ω κ ν} {calls : List ω} {call : ω} {k : κ} {x y : ν}
  {i j : Nat}

def ClosesAt (f : ClosureEffect ω κ ν) (calls : List ω) (k : κ) (x : ν) (i : Nat) : Prop :=
  calls[i]?.bind f.closing? = some (k, x) ∧ ∀ later ∈ calls.drop (i + 1), f.reopens later k = false

def Closed (f : ClosureEffect ω κ ν) (calls : List ω) (k : κ) : Prop :=
  ∃ x i, f.ClosesAt calls k x i

/-- The call at a place is the first that closes a key after it was last reopened. -/
def FirstAt (f : ClosureEffect ω κ ν) (calls : List ω) (k : κ) (x : ν) (i : Nat) : Prop :=
  f.ClosesAt calls k x i ∧ ∀ j < i, ∀ y, ¬ f.ClosesAt calls k y j

/-- A list has one entry for each key that is closed, in the order of the calls that closed them
first. -/
structure Records (f : ClosureEffect ω κ ν) (calls : List ω) (entries : List (κ × ν)) : Prop where
  mem : ∀ k x, (k, x) ∈ entries ↔ ∃ i, f.FirstAt calls k x i
  ordered : entries.Pairwise fun e e' =>
    ∀ i j, f.FirstAt calls e.1 e.2 i → f.FirstAt calls e'.1 e'.2 j → i < j

/-! ## One more call -/

theorem ClosesAt.inside (closes : f.ClosesAt calls k x i) : i < calls.length := by
  obtain ⟨call, here, -⟩ := Option.bind_eq_some_iff.1 closes.1
  exact (List.getElem?_eq_some_iff.1 here).1

theorem closesAt_snoc : f.ClosesAt (calls ++ [call]) k x i ↔
    f.ClosesAt calls k x i ∧ f.reopens call k = false ∨
      i = calls.length ∧ f.closing? call = some (k, x) := by
  rcases Nat.lt_trichotomy i calls.length with inside | rfl | outside
  · have here : (calls ++ [call])[i]? = calls[i]? := List.getElem?_append_left inside
    have rest : (calls ++ [call]).drop (i + 1) = calls.drop (i + 1) ++ [call] :=
      List.drop_append_of_le_length inside
    simp only [ClosesAt, here, rest, List.mem_append, List.mem_singleton, or_imp, forall_and,
      forall_eq, Nat.ne_of_lt inside, false_and, or_false, and_assoc]
  · have beyond : ¬ f.ClosesAt calls k x calls.length := fun closes =>
      Nat.lt_irrefl _ closes.inside
    have rest : (calls ++ [call]).drop (calls.length + 1) = [] := by simp
    rw [or_iff_right fun closes => beyond closes.1]
    simp [ClosesAt, rest]
  · have beyond : ¬ f.ClosesAt calls k x i := fun closes => Nat.lt_asymm closes.inside outside
    have beyond' : ¬ f.ClosesAt (calls ++ [call]) k x i := by
      intro closes
      have := closes.inside
      rw [List.length_append, List.length_singleton] at this
      omega
    simp [beyond, beyond', Nat.ne_of_gt outside]

theorem firstAt_snoc : f.FirstAt (calls ++ [call]) k x i ↔
    f.FirstAt calls k x i ∧ f.reopens call k = false ∨
      i = calls.length ∧ f.closing? call = some (k, x) ∧ ¬ f.Closed calls k := by
  constructor
  · rintro ⟨closes, first⟩
    rcases closesAt_snoc.1 closes with ⟨closes, kept⟩ | ⟨rfl, closing⟩
    · refine .inl ⟨⟨closes, fun j earlier y closes' => ?_⟩, kept⟩
      exact first j earlier y (closesAt_snoc.2 (.inl ⟨closes', kept⟩))
    · refine .inr ⟨rfl, closing, ?_⟩
      rintro ⟨y, j, closes'⟩
      exact first j closes'.inside y (closesAt_snoc.2 (.inl ⟨closes', f.apart closing k⟩))
  · rintro (⟨⟨closes, first⟩, kept⟩ | ⟨rfl, closing, fresh⟩)
    · refine ⟨closesAt_snoc.2 (.inl ⟨closes, kept⟩), fun j earlier y closes' => ?_⟩
      rcases closesAt_snoc.1 closes' with ⟨closes', -⟩ | ⟨rfl, -⟩
      · exact first j earlier y closes'
      · exact Nat.lt_asymm earlier closes.inside
    · refine ⟨closesAt_snoc.2 (.inr ⟨rfl, closing⟩), fun j earlier y closes' => ?_⟩
      rcases closesAt_snoc.1 closes' with ⟨closes', -⟩ | ⟨rfl, -⟩
      · exact fresh ⟨y, j, closes'⟩
      · exact Nat.lt_irrefl _ earlier

theorem exists_firstAt (closed : f.Closed calls k) : ∃ x i, f.FirstAt calls k x i := by
  classical
  have some : ∃ i x, f.ClosesAt calls k x i := exists_comm.1 closed
  obtain ⟨x, closes⟩ := Nat.find_spec some
  exact ⟨x, Nat.find some, closes, fun j earlier y closes' =>
    Nat.find_min some earlier ⟨y, closes'⟩⟩

/-! ## The catalog -/

variable [DecidableEq κ]

def step (f : ClosureEffect ω κ ν) (c : Catalog κ ν) (call : ω) : Catalog κ ν :=
  match f.closing? call with
  | some (k, x) => (c.insertNew k x).2
  | none => c.keepKeys fun k => !f.reopens call k

variable {c : Catalog κ ν}

theorem step_of_open {keeps : κ → Bool} (none : f.closing? call = none)
    (kept : ∀ k, keeps k = !f.reopens call k) : f.step c call = c.keepKeys keeps := by
  rw [step, none, funext kept]

/-- A call that is about the other catalog leaves this one. -/
theorem step_of_foreign (none : f.closing? call = none) (kept : ∀ k, f.reopens call k = false) :
    f.step c call = c := by
  have all : ∀ k, true = !f.reopens call k := fun k => by rw [kept, Bool.not_false]
  rw [step_of_open none all]
  exact Catalog.ext (List.filter_eq_self.2 fun _ _ => rfl)

omit [DecidableEq κ] in
theorem Records.mem_keys_iff (records : f.Records calls c.entries) :
    k ∈ c.keys ↔ f.Closed calls k := by
  constructor
  · intro listed
    obtain ⟨⟨_, x⟩, entry, rfl⟩ := List.mem_map.1 listed
    obtain ⟨i, closes, -⟩ := (records.mem _ x).1 entry
    exact ⟨x, i, closes⟩
  · intro closed
    obtain ⟨x, i, first⟩ := exists_firstAt closed
    exact List.mem_map.2 ⟨(k, x), (records.mem k x).2 ⟨i, first⟩, rfl⟩

/-- The entries of a catalog after a call are what the history with the call makes them. -/
theorem Records.step (records : f.Records calls c.entries) (call : ω) :
    f.Records (calls ++ [call]) (f.step c call).entries := by
  have closed_of_mem : ∀ e ∈ c.entries, f.Closed calls e.1 := fun e listed =>
    records.mem_keys_iff.1 (List.mem_map_of_mem listed)
  -- The calls of the entries that were there before are the same as before.
  have first_of_mem : ∀ e ∈ c.entries, ∀ i, f.FirstAt (calls ++ [call]) e.1 e.2 i →
      f.FirstAt calls e.1 e.2 i := by
    intro e listed i first
    rcases firstAt_snoc.1 first with ⟨first, -⟩ | ⟨-, -, fresh⟩
    · exact first
    · exact absurd (closed_of_mem e listed) fresh
  have ordered : c.entries.Pairwise fun e e' => ∀ i j,
      f.FirstAt (calls ++ [call]) e.1 e.2 i → f.FirstAt (calls ++ [call]) e'.1 e'.2 j → i < j :=
    records.ordered.imp_of_mem fun listed listed' before i j first first' =>
      before i j (first_of_mem _ listed i first) (first_of_mem _ listed' j first')
  cases closing : f.closing? call with
  | none =>
    rw [ClosureEffect.step, closing]
    refine ⟨fun k x => ?_, ordered.filter _⟩
    simp [Catalog.keepKeys, List.mem_filter, records.mem, firstAt_snoc, closing]
  | some closure =>
    obtain ⟨k, x⟩ := closure
    rw [ClosureEffect.step, closing, Catalog.entries_insertNew]
    by_cases listed : k ∈ c.keys
    · have closed := records.mem_keys_iff.1 listed
      rw [if_pos listed, List.append_nil]
      refine ⟨fun k' x' => ?_, ordered⟩
      simp only [records.mem, firstAt_snoc, closing, f.apart closing, Option.some.injEq,
        Prod.mk.injEq, and_true]
      refine exists_congr fun i => ⟨.inl, ?_⟩
      rintro (first | ⟨-, ⟨rfl, -⟩, fresh⟩)
      · exact first
      · exact absurd closed fresh
    · have fresh : ¬ f.Closed calls k := mt records.mem_keys_iff.2 listed
      rw [if_neg listed]
      refine ⟨fun k' x' => ?_, List.pairwise_append.2 ⟨ordered, List.pairwise_singleton _ _, ?_⟩⟩
      · simp only [List.mem_append, List.mem_singleton, records.mem, firstAt_snoc, closing,
          f.apart closing, Option.some.injEq, Prod.mk.injEq, and_true, exists_or, exists_eq_left]
        refine or_congr_right ⟨?_, ?_⟩
        · rintro ⟨rfl, rfl⟩
          exact ⟨⟨rfl, rfl⟩, fresh⟩
        · rintro ⟨⟨rfl, rfl⟩, -⟩
          exact ⟨rfl, rfl⟩
      · intro e old e' new i j first first'
        obtain rfl := List.mem_singleton.1 new
        rcases firstAt_snoc.1 first' with ⟨first', -⟩ | ⟨rfl, -, -⟩
        · exact absurd ⟨x, j, first'.1⟩ fresh
        · exact (first_of_mem e old i first).1.inside

omit [DecidableEq κ] in
theorem records_nil : f.Records [] [] := by
  refine ⟨fun k x => ⟨fun listed => absurd listed List.not_mem_nil, ?_⟩, .nil⟩
  rintro ⟨i, closes, -⟩
  exact absurd closes.inside (Nat.not_lt_zero i)

end ClosureEffect

namespace ClosureRecord
variable {α : Type}

inductive Call (α : Type) where
  | closeWell (name : String) (reason : ClosureReason) (time : α)
  | closeCompletion (name : String) (completion : Int) (time : α)
  | openWell (name : String) (reason : Option ClosureReason)
  | dropCompletion (name : String) (completion : Int)

def Call.perform (c : ClosureRecord α) : Call α → Option Bool × ClosureRecord α
  | .closeWell name reason time => (c.closeWell name reason time).map some id
  | .closeCompletion name completion time => (c.closeCompletion name completion time).map some id
  | .openWell name reason => (none, c.openWell name reason)
  | .dropCompletion name completion => (none, c.dropCompletion name completion)

def play (calls : List (Call α)) : ClosureRecord α :=
  calls.foldl (fun c call => (call.perform c).2) .empty

def wellEffect : ClosureEffect (Call α) (String × ClosureReason) α where
  closing?
    | .closeWell name reason time => some ((name, reason), time)
    | _ => none
  reopens
    | .openWell name reason, k => decide (k.1 = name) && reason.all fun r => decide (k.2 = r)
    | _, _ => false
  apart := by
    intro call k x closing k'
    cases call with
    | closeWell => rfl
    | closeCompletion | openWell | dropCompletion => cases closing

def completionEffect : ClosureEffect (Call α) (String × Int) α where
  closing?
    | .closeCompletion name completion time => some ((name, completion), time)
    | _ => none
  reopens
    | .dropCompletion name completion, k => decide (k = (name, completion))
    | _, _ => false
  apart := by
    intro call k x closing k'
    cases call with
    | closeCompletion => rfl
    | closeWell | openWell | dropCompletion => cases closing

theorem play_snoc (calls : List (Call α)) (call : Call α) :
    play (calls ++ [call]) = (call.perform (play calls)).2 := by
  rw [play, List.foldl_append]
  rfl

/-- A call acts on the two catalogs of a record as it does on each. -/
theorem catalogs_perform (c : ClosureRecord α) (call : Call α) :
    (call.perform c).2.wells = wellEffect.step c.wells call ∧
      (call.perform c).2.completions = completionEffect.step c.completions call := by
  cases call with
  | closeWell name reason time =>
    exact ⟨rfl, (ClosureEffect.step_of_foreign rfl fun _ => rfl).symm⟩
  | closeCompletion name completion time =>
    exact ⟨(ClosureEffect.step_of_foreign rfl fun _ => rfl).symm, rfl⟩
  | dropCompletion name completion =>
    have dropped : completionEffect.step c.completions (.dropCompletion name completion) =
        c.completions.keepKeys fun k => k ≠ (name, completion) :=
      ClosureEffect.step_of_open rfl fun _ => decide_not
    exact ⟨(ClosureEffect.step_of_foreign rfl fun _ => rfl).symm, dropped.symm⟩
  | openWell name reason =>
    have other : completionEffect.step c.completions (.openWell name reason) = c.completions :=
      ClosureEffect.step_of_foreign rfl fun _ => rfl
    cases reason with
    | none =>
      have opened : wellEffect.step c.wells (.openWell name none) =
          c.wells.keepKeys fun k => k.1 ≠ name :=
        ClosureEffect.step_of_open rfl fun k => by simp [wellEffect]
      exact ⟨opened.symm, other.symm⟩
    | some reason =>
      have opened : wellEffect.step c.wells (.openWell name (some reason)) =
          c.wells.keepKeys fun k => k ≠ (name, reason) :=
        ClosureEffect.step_of_open rfl fun k => by simp [wellEffect, Prod.ext_iff]
      exact ⟨opened.symm, other.symm⟩

theorem records_play (calls : List (Call α)) :
    wellEffect.Records calls (play calls).wells.entries ∧
      completionEffect.Records calls (play calls).completions.entries := by
  induction calls using List.reverseRecOn with
  | nil => exact ⟨ClosureEffect.records_nil, ClosureEffect.records_nil⟩
  | append_singleton calls call ih =>
    obtain ⟨wells, completions⟩ := catalogs_perform (play calls) call
    rw [play_snoc, wells, completions]
    exact ⟨ih.1.step call, ih.2.step call⟩

/-- A record lists what its history tells, and its queries answer from the lists. -/
structure Recounts (calls : List (Call α)) (c : ClosureRecord α) : Prop where
  wells : wellEffect.Records calls c.wells.entries
  completions : completionEffect.Records calls c.completions.entries
  hasWell : ∀ name reason, c.hasWell name (some reason) = true ↔
    wellEffect.Closed calls (name, reason)
  hasWell_any : ∀ name, c.hasWell name none = true ↔
    ∃ reason, wellEffect.Closed calls (name, reason)
  hasCompletion : ∀ name id, c.hasCompletion name id = true ↔
    completionEffect.Closed calls (name, id)
  closedWells : c.closedWells none = c.wells.entries
  closedWells_of : ∀ name, c.closedWells (some name) =
    c.wells.entries.filter fun e => e.1.1 = name
  closedCompletions : ∀ name, c.closedCompletions name =
    (c.completions.entries.filter fun e => e.1.1 = name).map fun e => e.1.2
  wellCount : c.wells.size = c.wells.entries.length
  completionCount : c.completions.size = c.completions.entries.length

theorem recounts_play (calls : List (Call α)) : (play calls).Recounts calls where
  wells := (records_play calls).1
  completions := (records_play calls).2
  hasWell name reason :=
    Catalog.has_eq_true_iff.trans (records_play calls).1.mem_keys_iff
  hasWell_any name := by
    rw [ClosureRecord.hasWell, List.any_eq_true]
    constructor
    · rintro ⟨⟨other, reason⟩, listed, same⟩
      obtain rfl := of_decide_eq_true same
      exact ⟨reason, (records_play calls).1.mem_keys_iff.1 listed⟩
    · rintro ⟨reason, closed⟩
      exact ⟨(name, reason), (records_play calls).1.mem_keys_iff.2 closed, decide_eq_true rfl⟩
  hasCompletion name id := Catalog.has_eq_true_iff.trans (records_play calls).2.mem_keys_iff
  closedWells := List.filter_eq_self.2 fun _ _ => rfl
  closedWells_of name := List.filter_congr fun e _ => by simp [eq_comm]
  closedCompletions name := by
    rw [ClosureRecord.closedCompletions, Catalog.keys, List.filter_map, List.map_map]
    rfl
  wellCount := rfl
  completionCount := rfl

/-- What calls in a row, on a record in which nothing is closed, make of it.  A closure is listed
exactly if a call closes it after the last one that reopens it, with the time of the first that
does, and in the order of these first calls; all queries answer from these lists.  A call that
closes answers whether its entry was absent, and one that reopens forgets just what it names. -/
theorem history_of_calls (calls : List (Call α)) :
    (play calls).Recounts calls ∧
    (∀ earlier call later, calls = earlier ++ call :: later →
      (∀ k time, wellEffect.closing? call = some (k, time) →
        ∃ new, (call.perform (play earlier)).1 = some new ∧
          (new = true ↔ ¬ wellEffect.Closed earlier k)) ∧
      ∀ k time, completionEffect.closing? call = some (k, time) →
        ∃ new, (call.perform (play earlier)).1 = some new ∧
          (new = true ↔ ¬ completionEffect.Closed earlier k)) ∧
    (let c := play calls;
      (∀ name, (c.openWell name none).wells.entries =
        c.wells.entries.filter fun e => e.1.1 ≠ name) ∧
      (∀ name reason, (c.openWell name (some reason)).wells.entries =
        c.wells.entries.filter fun e => e.1 ≠ (name, reason)) ∧
      (∀ name reason, (c.openWell name reason).completions = c.completions) ∧
      (∀ name id, (c.dropCompletion name id).completions.entries =
        c.completions.entries.filter fun e => e.1 ≠ (name, id)) ∧
      ∀ name id, (c.dropCompletion name id).wells = c.wells) := by
  refine ⟨recounts_play calls, fun earlier call later _ => ⟨?_, ?_⟩, ?_⟩
  · intro k time closing
    cases call with
    | closeWell name reason time =>
      cases closing
      refine ⟨_, rfl, ?_⟩
      rw [← (records_play earlier).1.mem_keys_iff]
      exact Catalog.fst_insertNew _ _ _
    | closeCompletion | openWell | dropCompletion => cases closing
  · intro k time closing
    cases call with
    | closeCompletion name id time =>
      cases closing
      refine ⟨_, rfl, ?_⟩
      rw [← (records_play earlier).2.mem_keys_iff]
      exact Catalog.fst_insertNew _ _ _
    | closeWell | openWell | dropCompletion => cases closing
  · refine ⟨fun _ => rfl, fun _ _ => rfl, fun _ reason => ?_, fun _ _ => rfl, fun _ _ => rfl⟩
    cases reason <;> rfl

/-- A well that is closed again after it was opened goes to the end of the list. -/
example :
    (play [.closeWell "P" .economic 1, .closeWell "Q" .economic 2, .closeWell "P" .economic 3,
      .openWell "P" none, .closeWell "P" .economic 5]).closedWells none =
        [(("Q", .economic), 2), (("P", .economic), 5)] := by
  decide

end ClosureRecord
end WellControl
