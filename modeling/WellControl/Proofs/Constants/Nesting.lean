import WellControl.Constants.Scope
import WellControl.Proofs.Exact
import WellControl.Proofs.Outcome

/-! # Nested blocks of constants

While a scope is entered, up to where it is left, a block of it is open.  If the blocks of a run are
nested and no scope is entered again while it is open, the sets that open scopes remember form a
stack (`ConstantsDesk.Stacked`): the innermost block's set is current, and what each block brings
back is the set of the next one outside (`ConstantsDesk.constants_follow_blocks`). -/
set_option autoImplicit false

namespace WellControl
namespace ConstantsDesk
variable {α : Type} [Scalar α]

/-! ## Runs -/

inductive Act (α : Type) [Scalar α] where
  | addSet (c : Constants α)
  | addScope (set : Nat)
  | change (set : Nat) (ch : Constants.Change α)
  | enter (scope : Nat)
  | leave (scope : Nat)

def perform (d : ConstantsDesk α) : Act α → ConstantsDesk α
  | .addSet c => (d.addSet c).2
  | .addScope i => (d.addScope i).2
  | .change i ch =>
    match d.changeSet i ch with
    | .ok changed => changed
    | .error _ => d
  | .enter x => d.enter x
  | .leave x => d.leave x

def play (d : ConstantsDesk α) (run : List (Act α)) : ConstantsDesk α := run.foldl perform d

/-- The scopes of the open blocks after an act, innermost first.  There are none if the act enters a
scope that is not on the desk or has an open block, or leaves another than the innermost one. -/
def nest (d : ConstantsDesk α) (opened : List Nat) : Act α → Option (List Nat)
  | .enter x => if x < d.scopes.length ∧ x ∉ opened then some (x :: opened) else none
  | .leave x =>
    match opened with
    | [] => none
    | y :: outer => if x = y then some outer else none
  | _ => some opened

def openBlocks (d : ConstantsDesk α) (opened : List Nat) : List (Act α) → Option (List Nat)
  | [] => some opened
  | a :: rest => (d.nest opened a).bind fun opened => (d.perform a).openBlocks opened rest

variable {d : ConstantsDesk α} {a : Act α} {run : List (Act α)} {opened opened' : List Nat}
  {x i j first : Nat}

@[simp] theorem play_nil (d : ConstantsDesk α) : d.play [] = d := rfl

@[simp] theorem play_cons (d : ConstantsDesk α) (a : Act α) (run : List (Act α)) :
    d.play (a :: run) = (d.perform a).play run := rfl

theorem play_append (d : ConstantsDesk α) (run run' : List (Act α)) :
    d.play (run ++ run') = (d.play run).play run' :=
  List.foldl_append

theorem openBlocks_append (d : ConstantsDesk α) (opened : List Nat) (run run' : List (Act α)) :
    d.openBlocks opened (run ++ run') =
      (d.openBlocks opened run).bind fun opened => (d.play run).openBlocks opened run' := by
  induction run generalizing d opened with
  | nil => rfl
  | cons a rest ih =>
    simp only [List.cons_append, openBlocks, play_cons, Option.bind_assoc]
    exact Option.bind_congr fun next _ => ih (d.perform a) next

/-! ## The stack of remembered sets -/

/-- Each open block's set is current inside and the scope remembers the set outside, down to the set
that was current at first. -/
inductive Stacked (scopes : List Scope) (first : Nat) : List Nat → Nat → Prop
  | bottom : Stacked scopes first [] first
  | block {x inner outside : Nat} {outer : List Nat}
      (entered : scopes[x]? = some ⟨inner, some outside⟩)
      (below : Stacked scopes first outer outside) : Stacked scopes first (x :: outer) inner

/-- A change is made in a set, and scopes do not see it. -/
theorem perform_change (d : ConstantsDesk α) (i : Nat) (ch : Constants.Change α) :
    (d.perform (.change i ch)).scopes = d.scopes ∧
      (d.perform (.change i ch)).current = d.current := by
  simp only [perform, changeSet]
  cases (d.set i).change ch <;> exact ⟨rfl, rfl⟩

/-- An act leaves each scope its set, and does nothing else to a scope that it neither enters nor
leaves. -/
theorem scope_perform {s : Scope} (a : Act α) (found : d.scopes[x]? = some s) :
    ∃ s', (d.perform a).scopes[x]? = some s' ∧ s'.inner = s.inner ∧
      (a ≠ .enter x → a ≠ .leave x → s' = s) := by
  have inside := (List.getElem?_eq_some_iff.1 found).1
  cases a with
  | addSet c => exact ⟨s, found, rfl, fun _ _ => rfl⟩
  | addScope i =>
    exact ⟨s, (List.getElem?_append_left inside).trans found, rfl, fun _ _ => rfl⟩
  | change i ch =>
    rw [(d.perform_change i ch).1]
    exact ⟨s, found, rfl, fun _ _ => rfl⟩
  | enter y =>
    simp only [perform, enter]
    split
    · rename_i t there
      by_cases same : y = x
      · subst same
        cases found.symm.trans there
        exact ⟨_, List.getElem?_set_self inside, rfl, fun other _ => absurd rfl other⟩
      · exact ⟨s, (List.getElem?_set_ne same).trans found, rfl, fun _ _ => rfl⟩
    · exact ⟨s, found, rfl, fun _ _ => rfl⟩
  | leave y =>
    simp only [perform, leave]
    split
    · rename_i inner outer there
      by_cases same : y = x
      · subst same
        cases found.symm.trans there
        exact ⟨_, List.getElem?_set_self inside, rfl, fun _ other => absurd rfl other⟩
      · exact ⟨s, (List.getElem?_set_ne same).trans found, rfl, fun _ _ => rfl⟩
    · exact ⟨s, found, rfl, fun _ _ => rfl⟩

def setOf (d : ConstantsDesk α) (x : Nat) : Option Nat := d.scopes[x]?.map Scope.inner

theorem setOf_play (run : List (Act α)) (made : d.setOf x = some i) :
    (d.play run).setOf x = some i := by
  induction run generalizing d with
  | nil => exact made
  | cons a rest ih =>
    obtain ⟨s, found, rfl⟩ := Option.map_eq_some_iff.1 made
    obtain ⟨s', found', same, -⟩ := scope_perform a found
    exact ih (by rw [setOf, found', Option.map_some, same])

/-- The current set is that of the innermost open block. -/
theorem Stacked.setOf_eq {outer : List Nat} (stacked : Stacked d.scopes first (x :: outer) i) :
    d.setOf x = some i := by
  cases stacked with
  | block entered below => rw [setOf, entered, Option.map_some]

theorem Stacked.current_of_bottom {scopes : List Scope} (stacked : Stacked scopes first [] i) :
    i = first := by
  cases stacked
  rfl

/-- Whenever the same blocks are open, the same set is current. -/
theorem Stacked.current_play (before : Stacked d.scopes first opened d.current)
    (after : Stacked (d.play run).scopes first opened (d.play run).current) :
    (d.play run).current = d.current := by
  cases opened with
  | nil => exact after.current_of_bottom.trans before.current_of_bottom.symm
  | cons x outer =>
    have kept := setOf_play run before.setOf_eq
    exact Option.some.inj (after.setOf_eq.symm.trans kept)

/-- An act leaves the stack as it is, unless it enters or leaves a scope that is part of it. -/
theorem Stacked.kept (stacked : Stacked d.scopes first opened i)
    (other : ∀ x ∈ opened, a ≠ .enter x ∧ a ≠ .leave x) :
    Stacked (d.perform a).scopes first opened i := by
  induction stacked with
  | bottom => exact .bottom
  | @block x inner outside outer entered below ih =>
    obtain ⟨s, found, -, same⟩ := scope_perform a entered
    obtain ⟨notEntered, notLeft⟩ := other x List.mem_cons_self
    rw [same notEntered notLeft] at found
    exact .block found (ih fun y listed => other y (List.mem_cons_of_mem x listed))

/-- An act takes the stack of remembered sets to that of the blocks that are open after it. -/
theorem Stacked.perform (stacked : Stacked d.scopes first opened d.current)
    (distinct : opened.Nodup) (nested : d.nest opened a = some opened') :
    Stacked (d.perform a).scopes first opened' (d.perform a).current := by
  cases a with
  | addSet c =>
    cases nested
    exact stacked
  | addScope i =>
    cases nested
    exact stacked.kept fun x _ => ⟨nofun, nofun⟩
  | change i ch =>
    cases nested
    rw [(d.perform_change i ch).2]
    exact stacked.kept fun x _ => ⟨nofun, nofun⟩
  | enter x =>
    obtain ⟨⟨inside, closed⟩, result⟩ := Option.ite_none_right_eq_some.1 nested
    cases result
    have below := stacked.kept (a := .enter x) fun y listed =>
      ⟨fun same => closed (Act.enter.inj same ▸ listed), nofun⟩
    have found : d.scopes[x]? = some d.scopes[x] := List.getElem?_eq_getElem inside
    simp only [ConstantsDesk.perform, enter, found] at below ⊢
    exact .block (List.getElem?_set_self inside) below
  | leave x =>
    cases stacked with
    | bottom => cases nested
    | @block y inner outside outer entered below =>
      obtain ⟨rfl, result⟩ := Option.ite_none_right_eq_some.1 nested
      cases result
      have closed := (List.nodup_cons.1 distinct).1
      have below := below.kept (a := .leave x) fun y listed =>
        ⟨nofun, fun same => closed (Act.leave.inj same ▸ listed)⟩
      simp only [ConstantsDesk.perform, leave, entered] at below ⊢
      exact below

/-- No scope has two open blocks. -/
theorem nodup_nest (distinct : opened.Nodup) (nested : d.nest opened a = some opened') :
    opened'.Nodup := by
  cases a with
  | addSet | addScope | change =>
    cases nested
    exact distinct
  | enter x =>
    obtain ⟨⟨-, closed⟩, result⟩ := Option.ite_none_right_eq_some.1 nested
    cases result
    exact List.nodup_cons.2 ⟨closed, distinct⟩
  | leave x =>
    cases opened with
    | nil => cases nested
    | cons y outer =>
      obtain ⟨-, result⟩ := Option.ite_none_right_eq_some.1 nested
      cases result
      exact (List.nodup_cons.1 distinct).2

theorem nodup_openBlocks (distinct : opened.Nodup)
    (nested : d.openBlocks opened run = some opened') : opened'.Nodup := by
  induction run generalizing d opened with
  | nil =>
    cases nested
    exact distinct
  | cons a rest ih =>
    obtain ⟨next, one, others⟩ := Option.bind_eq_some_iff.1 nested
    exact ih (nodup_nest distinct one) others

theorem Stacked.play (stacked : Stacked d.scopes first opened d.current) (distinct : opened.Nodup)
    (nested : d.openBlocks opened run = some opened') :
    Stacked (d.play run).scopes first opened' (d.play run).current := by
  induction run generalizing d opened with
  | nil =>
    cases nested
    exact stacked
  | cons a rest ih =>
    obtain ⟨next, one, others⟩ := Option.bind_eq_some_iff.1 nested
    exact ih (stacked.perform distinct one) (nodup_nest distinct one) others

/-- At any moment of a run of nested blocks the remembered sets form a stack. -/
theorem exists_stacked {earlier later : List (Act α)}
    (nested : d.openBlocks [] (earlier ++ later) = some []) : ∃ opened,
      d.openBlocks [] earlier = some opened ∧
        (d.play earlier).openBlocks opened later = some [] ∧
        Stacked (d.play earlier).scopes d.current opened (d.play earlier).current ∧
        opened.Nodup := by
  rw [openBlocks_append] at nested
  obtain ⟨opened, before, after⟩ := Option.bind_eq_some_iff.1 nested
  exact ⟨opened, before, after, Stacked.play .bottom .nil before, nodup_openBlocks .nil before⟩

/-! ## Where blocks close -/

/-- As long as a scope is not left, its block stays open. -/
theorem openBlocks_of_not_left (inner : List Nat) {outer : List Nat} (kept : .leave x ∉ run)
    (nested : d.openBlocks (inner ++ x :: outer) run = some opened) :
    ∃ inner', opened = inner' ++ x :: outer := by
  induction run generalizing d inner with
  | nil =>
    cases nested
    exact ⟨inner, rfl⟩
  | cons a rest ih =>
    obtain ⟨next, one, others⟩ := Option.bind_eq_some_iff.1 nested
    have kept' : .leave x ∉ rest := fun left => kept (List.mem_cons_of_mem a left)
    cases a with
    | addSet | addScope | change =>
      cases one
      exact ih inner kept' others
    | enter y =>
      obtain ⟨-, result⟩ := Option.ite_none_right_eq_some.1 one
      cases result
      exact ih (y :: inner) kept' others
    | leave y =>
      cases inner with
      | nil =>
        obtain ⟨rfl, -⟩ := Option.ite_none_right_eq_some.1 one
        exact absurd List.mem_cons_self kept
      | cons z inner =>
        obtain ⟨-, result⟩ := Option.ite_none_right_eq_some.1 one
        cases result
        exact ih inner kept' others

/-- A block that closes leaves those open that were open before it. -/
theorem openBlocks_of_block {inside : List (Act α)} (distinct : opened.Nodup)
    (kept : .leave x ∉ inside)
    (nested : d.openBlocks opened (.enter x :: (inside ++ [.leave x])) = some opened') :
    opened' = opened := by
  obtain ⟨entered, one, others⟩ := Option.bind_eq_some_iff.1 nested
  have distinct := nodup_nest distinct one
  obtain ⟨-, result⟩ := Option.ite_none_right_eq_some.1 one
  cases result
  rw [openBlocks_append] at others
  obtain ⟨last, within, left⟩ := Option.bind_eq_some_iff.1 others
  have distinct := nodup_openBlocks distinct within
  obtain ⟨inner, rfl⟩ := openBlocks_of_not_left [] kept within
  obtain ⟨next, one, result⟩ := Option.bind_eq_some_iff.1 left
  cases result
  cases inner with
  | nil => exact (Option.some.inj ((if_pos rfl).symm.trans one)).symm
  | cons y inner =>
    -- The innermost block is that of the scope which is left, so it would have two.
    obtain ⟨rfl, -⟩ := Option.ite_none_right_eq_some.1 one
    refine absurd ?_ (List.nodup_cons.1 distinct).1
    exact List.mem_append_right inner List.mem_cons_self

/-- When a block closes, the set is current that was so just before it opened. -/
theorem current_of_block {inside : List (Act α)}
    (stacked : Stacked d.scopes first opened d.current) (distinct : opened.Nodup)
    (kept : .leave x ∉ inside)
    (nested : d.openBlocks opened (.enter x :: (inside ++ [.leave x])) = some opened') :
    (d.play (.enter x :: (inside ++ [.leave x]))).current = d.current := by
  have after := stacked.play distinct nested
  rw [openBlocks_of_block distinct kept nested] at after
  exact stacked.current_play after

/-! ## Changes of sets -/

/-- The constants after a change, which leaves them as they are if it is refused. -/
def changed (c : Constants α) (ch : Constants.Change α) : Constants α :=
  match c.change ch with
  | .ok c' => c'
  | .error _ => c

def changesOf (i : Nat) (run : List (Act α)) : List (Constants.Change α) :=
  run.filterMap fun
    | .change j ch => if j = i then some ch else none
    | _ => none

@[simp] theorem sets_enter (d : ConstantsDesk α) (x : Nat) : (d.enter x).sets = d.sets := by
  unfold enter
  split <;> rfl

@[simp] theorem sets_leave (d : ConstantsDesk α) (x : Nat) : (d.leave x).sets = d.sets := by
  unfold leave
  split <;> rfl

theorem sets_change (d : ConstantsDesk α) (i : Nat) (ch : Constants.Change α) :
    (d.perform (.change i ch)).sets = d.sets.set i (changed (d.set i) ch) := by
  simp only [perform, changeSet, changed]
  cases (d.set i).change ch with
  | ok c => rfl
  | error fault =>
    by_cases inside : i < d.sets.length
    · simp [set, inside]
    · exact (List.set_eq_of_length_le (Nat.not_lt.1 inside)).symm

theorem set_perform (inside : i < d.sets.length) (a : Act α) :
    i < (d.perform a).sets.length ∧
      (d.perform a).set i = (changesOf i [a]).foldl changed (d.set i) := by
  cases a with
  | addSet c =>
    refine ⟨Nat.lt_of_lt_of_le inside (by simp [perform, addSet]), ?_⟩
    simp [perform, addSet, set, changesOf, List.getElem?_append_left inside]
  | addScope j => exact ⟨inside, rfl⟩
  | enter x | leave x => simp [perform, set, changesOf, inside]
  | change j ch =>
    rw [set, sets_change]
    by_cases same : j = i
    · subst same
      simp [changesOf, inside]
    · simp [changesOf, same, inside, set]

theorem set_play (inside : i < d.sets.length) (run : List (Act α)) :
    (d.play run).set i = (changesOf i run).foldl changed (d.set i) := by
  induction run generalizing d with
  | nil => rfl
  | cons a rest ih =>
    obtain ⟨inside', first⟩ := set_perform inside a
    have split : changesOf i (a :: rest) = changesOf i [a] ++ changesOf i rest := by
      rw [← List.singleton_append, changesOf, List.filterMap_append]
      rfl
    rw [split, List.foldl_append, ← first]
    exact ih inside'

/-! ## Runs of nested blocks -/

/-- Let the blocks of a run be nested, and no scope be entered while it has an open block.  At every
moment the set that is current, from which all constants are read, is that of the scope of the
innermost open block, or that which was current at first where no block is open.  When a block
closes, the set is current that was so just before the block opened, and at the end that which was
at first.  All the while each scope keeps its set, and a set holds what it held at an earlier moment
after the changes made in it since. -/
theorem constants_follow_blocks (d : ConstantsDesk α) {run : List (Act α)}
    (nested : d.openBlocks [] run = some []) :
    (∀ earlier later, run = earlier ++ later →
      ∃ opened, d.openBlocks [] earlier = some opened ∧
        (opened = [] → (d.play earlier).current = d.current) ∧
        ∀ x outer, opened = x :: outer → ∃ i, (d.play earlier).setOf x = some i ∧
          (d.play earlier).current = i ∧
          ∀ name, (d.play earlier).constants.value name = ((d.play earlier).set i).value name) ∧
    (∀ earlier x inside later, run = earlier ++ .enter x :: (inside ++ .leave x :: later) →
      .leave x ∉ inside →
      (d.play (earlier ++ .enter x :: (inside ++ [.leave x]))).current =
        (d.play earlier).current) ∧
    (d.play run).current = d.current ∧
    ∀ earlier middle later, run = earlier ++ (middle ++ later) →
      (∀ x i, (d.play earlier).setOf x = some i → (d.play (earlier ++ middle)).setOf x = some i) ∧
      ∀ i, i < (d.play earlier).sets.length → (d.play (earlier ++ middle)).set i =
        (changesOf i middle).foldl changed ((d.play earlier).set i) := by
  refine ⟨fun earlier later split => ?_, fun earlier x inside later split kept => ?_, ?_,
    fun earlier middle later _ => ?_⟩
  · subst split
    obtain ⟨opened, before, -, stacked, -⟩ := exists_stacked nested
    refine ⟨opened, before, ?_, ?_⟩
    · rintro rfl
      exact stacked.current_of_bottom
    · rintro x outer rfl
      exact ⟨_, stacked.setOf_eq, rfl, fun name => rfl⟩
  · obtain rfl : run = earlier ++ (.enter x :: (inside ++ [.leave x]) ++ later) := by
      simp [split]
    obtain ⟨opened, -, after, stacked, distinct⟩ := exists_stacked nested
    rw [openBlocks_append] at after
    obtain ⟨opened', block, -⟩ := Option.bind_eq_some_iff.1 after
    rw [play_append]
    exact current_of_block stacked distinct kept block
  · exact (Stacked.play .bottom .nil nested).current_of_bottom
  · rw [play_append]
    exact ⟨fun x i made => setOf_play middle made, fun i inside => set_play inside middle⟩

section Example

def madeScopes : List (Act ℚ) :=
  [.addSet .standard, .addScope 1, .addSet .standard, .addScope 2, .addScope 1]

/-- While a block of the second set is open, the first set is changed from outside it, and then from
a block of its own in which a change is refused. -/
def innerRun : List (Act ℚ) :=
  [.change 1 (.rateEpsilon 3), .enter 2, .change 1 (.rateEpsilon (-1)), .leave 2]

/-- All three scopes are entered, and the outer one once more after it was left. -/
def nestedRun : List (Act ℚ) :=
  madeScopes ++ [.enter 0, .change 1 (.rateEpsilon 7)] ++
    .enter 1 :: (innerRun ++ .leave 1 :: [.leave 0, .enter 0, .leave 0])

theorem nestedRun_restores :
    (initial : ConstantsDesk ℚ).openBlocks [] nestedRun = some [] ∧
    (∀ name, (initial.play (nestedRun.take 11)).constants.value name =
      ((initial.play (nestedRun.take 11)).set 1).value name) ∧
    (initial.play (nestedRun.take 11)).constants.value .rateEpsilon = .real 3 ∧
    (initial.play (nestedRun.take 13)).current = (initial.play (nestedRun.take 7)).current ∧
    (initial.play nestedRun).current = 0 := by
  have nested : (initial : ConstantsDesk ℚ).openBlocks [] nestedRun = some [] := by
    decide +kernel
  obtain ⟨moments, closes, whole, -⟩ := constants_follow_blocks initial nested
  refine ⟨nested, ?_, by decide +kernel, ?_, whole⟩
  · obtain ⟨opened, before, -, inner⟩ := moments _ _ (List.take_append_drop 11 nestedRun).symm
    have stack : (initial : ConstantsDesk ℚ).openBlocks [] (nestedRun.take 11) =
        some [2, 1, 0] := by
      decide +kernel
    obtain rfl := Option.some.inj (before.symm.trans stack)
    obtain ⟨i, set, -, reads⟩ := inner 2 [1, 0] rfl
    have one : (initial.play (nestedRun.take 11)).setOf 2 = some 1 := by decide +kernel
    obtain rfl := Option.some.inj (set.symm.trans one)
    exact reads
  · exact closes _ 1 innerRun _ rfl (by simp [innerRun])

end Example

end ConstantsDesk
end WellControl
