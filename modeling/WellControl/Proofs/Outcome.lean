import WellControl.Fault

/-! # Outcomes of a chain of checks

A chain of checks succeeds exactly when each of its links does, and fails with the fault of the
first link that fails. -/
set_option autoImplicit false

namespace WellControl.Outcome
variable {φ β γ : Type}

theorem bind_eq_ok {x : Except φ β} {f : β → Except φ γ} {c : γ} :
    x >>= f = .ok c ↔ ∃ b, x = .ok b ∧ f b = .ok c := by
  cases x with
  | error fault => simp [bind, Except.bind]
  | ok b => simp [bind, Except.bind]

theorem bind_eq_error {x : Except φ β} {f : β → Except φ γ} {fault : φ} :
    x >>= f = .error fault ↔ x = .error fault ∨ ∃ b, x = .ok b ∧ f b = .error fault := by
  cases x with
  | error other => simp [bind, Except.bind]
  | ok b => simp [bind, Except.bind]

theorem ite_error_eq_ok {refused : Prop} [Decidable refused] {fault : φ} {x : Except φ β} {b : β} :
    (if refused then .error fault else x) = .ok b ↔ ¬ refused ∧ x = .ok b := by
  by_cases c : refused
  · simp [c]
  · simp [c]

@[simp] theorem ok_bind (b : β) (f : β → Except φ γ) : (Except.ok b >>= f) = f b := rfl

@[simp] theorem error_bind (fault : φ) (f : β → Except φ γ) :
    (Except.error fault >>= f) = .error fault := rfl

@[simp] theorem pure_eq_ok (b : β) : (pure b : Except φ β) = .ok b := rfl

theorem mapM_eq_ok {xs : List β} {f : β → Except φ γ} {g : β → γ}
    (each : ∀ x ∈ xs, f x = .ok (g x)) : xs.mapM f = .ok (xs.map g) := by
  induction xs with
  | nil => rfl
  | cons x rest ih =>
    rw [List.mapM_cons, each x List.mem_cons_self,
      ih fun y later => each y (List.mem_cons_of_mem x later)]
    rfl

theorem exists_mapM_eq_ok {xs : List β} {f : β → Except φ γ} (each : ∀ x ∈ xs, ∃ y, f x = .ok y) :
    ∃ ys, xs.mapM f = .ok ys := by
  induction xs with
  | nil => exact ⟨[], rfl⟩
  | cons x rest ih =>
    obtain ⟨y, first⟩ := each x List.mem_cons_self
    obtain ⟨ys, later⟩ := ih fun x' listed => each x' (List.mem_cons_of_mem x listed)
    exact ⟨y :: ys, by rw [List.mapM_cons, first, later]; rfl⟩

theorem mapM_congr {xs : List β} {f g : β → Except φ γ} (each : ∀ x ∈ xs, f x = g x) :
    xs.mapM f = xs.mapM g := by
  induction xs with
  | nil => rfl
  | cons x rest ih =>
    rw [List.mapM_cons, List.mapM_cons, each x List.mem_cons_self,
      ih fun y later => each y (List.mem_cons_of_mem x later)]

theorem mapM_cons_eq_ok {x : β} {xs : List β} {f : β → Except φ γ} {ys : List γ} :
    (x :: xs).mapM f = .ok ys ↔ ∃ y rest, f x = .ok y ∧ xs.mapM f = .ok rest ∧ y :: rest = ys := by
  simp only [List.mapM_cons, bind_eq_ok, pure_eq_ok, Except.ok.injEq, exists_and_left]

theorem exists_of_mem_mapM {xs : List β} {f : β → Except φ γ} {ys : List γ}
    (mapped : xs.mapM f = .ok ys) {y : γ} (listed : y ∈ ys) : ∃ x ∈ xs, f x = .ok y := by
  induction xs generalizing ys with
  | nil =>
    cases mapped
    exact absurd listed List.not_mem_nil
  | cons x rest ih =>
    obtain ⟨first, later, computed, others, rfl⟩ := mapM_cons_eq_ok.1 mapped
    rcases List.mem_cons.1 listed with rfl | listed
    · exact ⟨x, List.mem_cons_self, computed⟩
    · obtain ⟨x', listed', computed'⟩ := ih others listed
      exact ⟨x', List.mem_cons_of_mem x listed', computed'⟩

theorem map_eq_of_mapM {δ : Type} {xs : List β} {f : β → Except φ γ} {ys : List γ}
    (mapped : xs.mapM f = .ok ys) {g : γ → δ} {h : β → δ}
    (same : ∀ x y, f x = .ok y → g y = h x) : ys.map g = xs.map h := by
  induction xs generalizing ys with
  | nil =>
    cases mapped
    rfl
  | cons x rest ih =>
    obtain ⟨first, later, computed, others, rfl⟩ := mapM_cons_eq_ok.1 mapped
    rw [List.map_cons, List.map_cons, same x first computed, ih others]

/-- What each step of a fold keeps holds at its end. -/
theorem of_foldlM_eq_ok {P : β → Prop} {f : β → γ → Except φ β} {xs : List γ}
    (step : ∀ b b', P b → ∀ x ∈ xs, f b x = .ok b' → P b') {b b' : β} (start : P b)
    (folded : xs.foldlM f b = .ok b') : P b' := by
  induction xs generalizing b with
  | nil =>
    cases folded
    exact start
  | cons x rest ih =>
    rw [List.foldlM_cons] at folded
    obtain ⟨next, computed, folded⟩ := bind_eq_ok.1 folded
    apply ih (fun b b' held x' later => step b b' held x' (List.mem_cons_of_mem x later))
    · exact step b next start x List.mem_cons_self computed
    · exact folded

def FailsOnly (P : φ → Prop) (x : Except φ β) : Prop :=
  ∀ fault, x = .error fault → P fault

section FailsOnly
variable {P : φ → Prop}

theorem FailsOnly.ok (b : β) : FailsOnly P (.ok b : Except φ β) := nofun

theorem FailsOnly.error {fault : φ} (holds : P fault) :
    FailsOnly P (.error fault : Except φ β) := by
  intro _ failed
  cases failed
  exact holds

theorem FailsOnly.bind {x : Except φ β} {f : β → Except φ γ} (first : FailsOnly P x)
    (next : ∀ b, x = .ok b → FailsOnly P (f b)) : FailsOnly P (x >>= f) := by
  intro fault failed
  rcases bind_eq_error.1 failed with failed | ⟨b, computed, failed⟩
  · exact first fault failed
  · exact next b computed fault failed

theorem FailsOnly.mapM {xs : List β} {f : β → Except φ γ} (each : ∀ x ∈ xs, FailsOnly P (f x)) :
    FailsOnly P (xs.mapM f) := by
  induction xs with
  | nil => exact .ok []
  | cons x rest ih =>
    rw [List.mapM_cons]
    refine (each x List.mem_cons_self).bind fun y _ => ?_
    exact (ih fun x' later => each x' (List.mem_cons_of_mem x later)).bind fun ys _ => .ok _

end FailsOnly

section Alike
variable {δ ε : Type}

/-- Two outcomes are the same fault, or values that are related. -/
inductive Alike (R : β → γ → Prop) : Except φ β → Except φ γ → Prop
  | error (fault : φ) : Alike R (.error fault) (.error fault)
  | ok {b : β} {c : γ} (related : R b c) : Alike R (.ok b) (.ok c)

theorem Alike.bind {R : β → γ → Prop} {S : δ → ε → Prop} {x : Except φ β} {y : Except φ γ}
    {f : β → Except φ δ} {g : γ → Except φ ε} (alike : Alike R x y)
    (next : ∀ b c, R b c → Alike S (f b) (g c)) : Alike S (x >>= f) (y >>= g) := by
  cases alike with
  | error fault => exact .error fault
  | ok related => exact next _ _ related

theorem Alike.bind_same {S : δ → ε → Prop} {x y : Except φ β} {f : β → Except φ δ}
    {g : β → Except φ ε} (equal : y = x) (next : ∀ b, Alike S (f b) (g b)) :
    Alike S (x >>= f) (y >>= g) := by
  subst equal
  cases y with
  | error fault => exact .error fault
  | ok b => exact next b

theorem Alike.foldlM {R : β → γ → Prop} {f : β → δ → Except φ β} {g : γ → δ → Except φ γ}
    (step : ∀ b c x, R b c → Alike R (f b x) (g c x)) (xs : List δ) {b : β} {c : γ}
    (related : R b c) : Alike R (xs.foldlM f b) (xs.foldlM g c) := by
  induction xs generalizing b c with
  | nil => exact .ok related
  | cons x rest ih =>
    rw [List.foldlM_cons, List.foldlM_cons]
    exact (step b c x related).bind fun b' c' later => ih later

end Alike

end WellControl.Outcome
