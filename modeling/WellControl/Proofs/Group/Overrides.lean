import WellControl.Catalog.Lemmas
import WellControl.Proofs.Plain

/-! # Group definitions in effect

Of the overrides of a schedule a lookup of a group sees those that define the group and have taken
over by the step it is made for, and answers with the last of them (`Schedule.group_eq_iff`).  The
answer therefore stays the same until another override that defines the group takes over, and edits
of other overrides do not show (`Schedule.group_follows_overrides`). -/
set_option autoImplicit false

namespace WellControl

/-! ## The greatest key -/

section Latest
variable {β : Type} {l : List (Int × β)} {best : Int × β}

theorem latest?_eq_none_iff : latest? l = none ↔ l = [] := by
  cases l with
  | nil => exact iff_of_true rfl rfl
  | cons e rest =>
    refine iff_of_false ?_ (List.cons_ne_nil e rest)
    unfold latest?
    split
    · split <;> exact Option.some_ne_none _
    · exact Option.some_ne_none _

theorem latest?_spec (found : latest? l = some best) : best ∈ l ∧ ∀ e ∈ l, e.1 ≤ best.1 := by
  induction l generalizing best with
  | nil => cases found
  | cons head rest ih =>
    unfold latest? at found
    split at found
    · rename_i later among
      obtain ⟨listed, greatest⟩ := ih among
      split at found
      · rename_i less
        cases found
        refine ⟨List.mem_cons_of_mem head listed, fun e member => ?_⟩
        rcases List.mem_cons.1 member with rfl | member
        · exact Int.le_of_lt less
        · exact greatest e member
      · rename_i notLess
        cases found
        refine ⟨List.mem_cons_self, fun e member => ?_⟩
        rcases List.mem_cons.1 member with rfl | member
        · exact Int.le_refl _
        · exact Int.le_trans (greatest e member) (Int.not_lt.1 notLess)
    · rename_i among
      cases found
      obtain rfl := latest?_eq_none_iff.1 among
      refine ⟨List.mem_cons_self, fun e member => ?_⟩
      obtain rfl := List.mem_singleton.1 member
      exact Int.le_refl _

end Latest

namespace Schedule
variable {α : Type} [Scalar α] {s t : Schedule α} {name : String} {step start : Int}
  {g : WellGroup α}

/-! ## Overrides that define a group -/

def definitionFrom (s : Schedule α) (name : String) (start : Int) : Option (WellGroup α) :=
  (s.overrides.get? start).bind fun groups => groups.get? name

/-- No override that defines the group has taken over by a step. -/
def Unchanged (s : Schedule α) (name : String) (step : Int) : Prop :=
  ∀ start, start ≤ step → s.definitionFrom name start = none

/-- This is the last definition of a group that has taken over by a step, and it did so at
`start`. -/
structure Latest (s : Schedule α) (name : String) (step start : Int) (g : WellGroup α) : Prop where
  defined : s.definitionFrom name start = some g
  started : start ≤ step
  last : ∀ later, start < later → later ≤ step → s.definitionFrom name later = none

theorem mem_definitions :
    (start, g) ∈ s.definitions name step ↔ s.definitionFrom name start = some g ∧ start ≤ step := by
  simp only [definitions, List.mem_filterMap, definitionFrom, Option.bind_eq_some_iff,
    Catalog.get?_eq_some_iff, Prod.exists]
  constructor
  · rintro ⟨from', groups, listed, found⟩
    split at found
    · rename_i started
      obtain ⟨g', defined, same⟩ := Option.map_eq_some_iff.1 found
      cases same
      exact ⟨⟨groups, listed, Catalog.get?_eq_some_iff.1 defined⟩, started⟩
    · cases found
  · rintro ⟨⟨groups, listed, defined⟩, started⟩
    refine ⟨start, groups, listed, ?_⟩
    rw [if_pos started, Catalog.get?_eq_some_iff.2 defined, Option.map_some]

/-- Of the overrides that a lookup sees it takes the last one. -/
theorem latest_of_latest? (found : latest? (s.definitions name step) = some (start, g)) :
    s.Latest name step start g := by
  obtain ⟨listed, greatest⟩ := latest?_spec found
  obtain ⟨defined, started⟩ := mem_definitions.1 listed
  refine ⟨defined, started, fun later after soon => ?_⟩
  cases given : s.definitionFrom name later with
  | none => rfl
  | some g' =>
    have no_later := greatest (later, g') (mem_definitions.2 ⟨given, soon⟩)
    exact absurd after (Int.not_lt.2 no_later)

theorem unchanged_of_latest? (none : latest? (s.definitions name step) = none) :
    s.Unchanged name step := by
  intro start started
  cases given : s.definitionFrom name start with
  | none => rfl
  | some g =>
    have listed := mem_definitions.2 ⟨given, started⟩
    rw [latest?_eq_none_iff.1 none] at listed
    exact absurd listed List.not_mem_nil

/-- There is one last definition at most. -/
theorem Latest.unique {start' : Int} {g' : WellGroup α} (first : s.Latest name step start g)
    (second : s.Latest name step start' g') : start' = start ∧ g' = g := by
  rcases Int.lt_trichotomy start start' with before | rfl | after
  · have none := first.last start' before second.started
    rw [second.defined] at none
    cases none
  · exact ⟨rfl, Option.some.inj (second.defined.symm.trans first.defined)⟩
  · have none := second.last start after first.started
    rw [first.defined] at none
    cases none

theorem Latest.not_unchanged (latest : s.Latest name step start g) : ¬ s.Unchanged name step := by
  intro unchanged
  have none := unchanged start latest.started
  rw [latest.defined] at none
  cases none

/-! ## Lookups -/

inductive Lookup (s : Schedule α) (name : String) (step : Int) : Outcome α (WellGroup α) → Prop
  | override {start : Int} {g : WellGroup α} (latest : s.Latest name step start g) :
      Lookup s name step (.ok g)
  | base {g : WellGroup α} (unchanged : s.Unchanged name step)
      (defined : s.groups.get? name = some g) : Lookup s name step (.ok g)
  | undefined (unchanged : s.Unchanged name step) (missing : s.groups.get? name = none) :
      Lookup s name step (.error (.undefinedGroup name step))

theorem lookup_group (s : Schedule α) (name : String) (step : Int) :
    s.Lookup name step (s.group name step) := by
  unfold group group?
  cases found : latest? (s.definitions name step) with
  | some best => exact .override (latest_of_latest? found)
  | none =>
    have unchanged := unchanged_of_latest? found
    cases defined : s.groups.get? name with
    | some g => exact .base unchanged defined
    | none => exact .undefined unchanged defined

theorem Lookup.unique {r r' : Outcome α (WellGroup α)} (first : s.Lookup name step r)
    (second : s.Lookup name step r') : r' = r := by
  cases first with
  | override latest =>
    cases second with
    | override latest' => rw [(latest.unique latest').2]
    | base unchanged | undefined unchanged => exact absurd unchanged latest.not_unchanged
  | base unchanged defined =>
    cases second with
    | override latest => exact absurd unchanged latest.not_unchanged
    | base _ defined' => rw [Option.some.inj (defined'.symm.trans defined)]
    | undefined _ missing =>
      rw [missing] at defined
      cases defined
  | undefined unchanged missing =>
    cases second with
    | override latest => exact absurd unchanged latest.not_unchanged
    | base _ defined =>
      rw [missing] at defined
      cases defined
    | undefined => rfl

/-- A lookup comes to what the overrides up to its step make of it. -/
theorem group_eq_iff {r : Outcome α (WellGroup α)} :
    s.group name step = r ↔ s.Lookup name step r :=
  ⟨fun found => found ▸ s.lookup_group name step, fun lookup => lookup.unique (s.lookup_group ..)⟩

/-! ## Edits of a schedule -/

structure AlikeUpTo (s t : Schedule α) (name : String) (step : Int) : Prop where
  base : t.groups.get? name = s.groups.get? name
  overrides : ∀ start, start ≤ step → t.definitionFrom name start = s.definitionFrom name start

namespace AlikeUpTo

theorem refl (s : Schedule α) (name : String) (step : Int) : s.AlikeUpTo s name step :=
  ⟨rfl, fun _ _ => rfl⟩

theorem trans {u : Schedule α} (first : s.AlikeUpTo t name step)
    (second : t.AlikeUpTo u name step) : s.AlikeUpTo u name step :=
  ⟨second.base.trans first.base, fun start started =>
    (second.overrides start started).trans (first.overrides start started)⟩

theorem unchanged (alike : s.AlikeUpTo t name step) (unchanged : s.Unchanged name step) :
    t.Unchanged name step := fun start started =>
  (alike.overrides start started).trans (unchanged start started)

theorem group_eq (alike : s.AlikeUpTo t name step) : t.group name step = s.group name step := by
  have lookup := s.lookup_group name step
  rw [group_eq_iff]
  generalize s.group name step = r at lookup ⊢
  cases lookup with
  | override latest =>
    refine .override ⟨?_, latest.started, fun later after soon => ?_⟩
    · exact (alike.overrides _ latest.started).trans latest.defined
    · exact (alike.overrides later soon).trans (latest.last later after soon)
  | base unchanged defined => exact .base (alike.unchanged unchanged) (alike.base.trans defined)
  | undefined unchanged missing =>
    exact .undefined (alike.unchanged unchanged) (alike.base.trans missing)

end AlikeUpTo

def override (s : Schedule α) (start : Int) (groups : Groups α) : Schedule α :=
  { s with overrides := s.overrides.put start groups }

def overrideAll (s : Schedule α) (edits : List (Int × Groups α)) : Schedule α :=
  edits.foldl (fun s e => s.override e.1 e.2) s

theorem definitionFrom_override (s : Schedule α) (start : Int) (groups : Groups α) (name : String)
    (start' : Int) : (s.override start groups).definitionFrom name start' =
      if start' = start then groups.get? name else s.definitionFrom name start' := by
  rw [definitionFrom, override, Catalog.get?_put]
  split <;> rfl

/-- An edit does not concern a group up to a step: it takes over later, or the override defines the
group neither before the edit nor after it. -/
def Aside (s : Schedule α) (name : String) (step : Int) (edit : Int × Groups α) : Prop :=
  step < edit.1 ∨ edit.2.get? name = none ∧ s.definitionFrom name edit.1 = none

theorem Aside.alike {edit : Int × Groups α} (aside : s.Aside name step edit) :
    s.AlikeUpTo (s.override edit.1 edit.2) name step := by
  refine ⟨rfl, fun start started => ?_⟩
  rw [definitionFrom_override]
  split
  · rename_i same
    subst same
    rcases aside with later | ⟨now, before⟩
    · exact absurd started (Int.not_le.2 later)
    · rw [now, before]
  · rfl

theorem Aside.of_alike (alike : s.AlikeUpTo t name step) {edit : Int × Groups α}
    (aside : s.Aside name step edit) : t.Aside name step edit := by
  by_cases later : step < edit.1
  · exact .inl later
  · obtain ⟨now, before⟩ := aside.resolve_left later
    exact .inr ⟨now, (alike.overrides _ (Int.not_lt.1 later)).trans before⟩

theorem alike_overrideAll {edits : List (Int × Groups α)}
    (aside : ∀ edit ∈ edits, s.Aside name step edit) :
    s.AlikeUpTo (s.overrideAll edits) name step := by
  induction edits generalizing s with
  | nil => exact .refl s name step
  | cons edit rest ih =>
    have first := (aside edit List.mem_cons_self).alike
    exact first.trans (ih fun e later => (aside e (List.mem_cons_of_mem edit later)).of_alike first)

/-- A lookup of a group answers with the definition that was the last to take over by its step, else
with the base definition, and fails as invalid if there is neither.  From the step at which a
definition takes over until before the next one does, this definition is the answer.  Schedules that
define the group alike up to a step answer alike there, and so a schedule answers as before after
any edits of overrides that take over later or do not define the group. -/
theorem group_follows_overrides (s : Schedule α) (name : String) :
    (∀ step r, s.group name step = r ↔ s.Lookup name step r) ∧
    (∀ step fault, s.group name step = .error fault → fault.kind = .validation) ∧
    (∀ start next g, s.definitionFrom name start = some g →
      (∀ between, start < between → between < next → s.definitionFrom name between = none) →
      ∀ step, start ≤ step → step < next → s.group name step = .ok g) ∧
    (∀ t step, s.AlikeUpTo t name step → t.group name step = s.group name step) ∧
    ∀ step edits, (∀ edit ∈ edits, s.Aside name step edit) →
      (s.overrideAll edits).group name step = s.group name step := by
  refine ⟨fun step r => group_eq_iff, fun step fault failed => ?_,
    fun start next g defined quiet step started before => ?_, fun t step alike => alike.group_eq,
    fun step edits aside => (alike_overrideAll aside).group_eq⟩
  · cases group_eq_iff.1 failed
    rfl
  · refine group_eq_iff.2 (.override ⟨defined, started, fun later after soon => ?_⟩)
    exact quiet later after (Int.lt_of_le_of_lt soon before)

/-- The base definition of a group, one from a step before the first, and one from a later step.
Between them other groups alone are overridden. -/
def overridden : Schedule ℚ where
  groups := Catalog.empty.put "G" ⟨"G", none, none, .empty⟩
  wells := ⟨[], []⟩
  overrides := Catalog.ofList [
    (5, Catalog.empty.put "G" ⟨"G", some "later", none, .empty⟩),
    (-3, Catalog.empty.put "G" ⟨"G", some "early", none, .empty⟩),
    (2, Catalog.empty.put "H" ⟨"H", none, none, .empty⟩)]

theorem definitionFrom_overridden (start : Int) :
    overridden.definitionFrom "G" start =
      if start = 5 then some ⟨"G", some "later", none, .empty⟩
      else if start = -3 then some ⟨"G", some "early", none, .empty⟩
      else none := by
  simp only [definitionFrom, overridden, Catalog.ofList, List.foldl_cons, List.foldl_nil,
    Catalog.get?_put]
  split
  · rename_i only
    subst only
    rfl
  · split
    · rename_i first
      subst first
      rfl
    · split <;> rfl

/-- The group is looked up at the steps where a definition takes over and at those before them, and
after the later definition was replaced. -/
theorem overridden_lookups :
    overridden.group "G" (-4) = .ok ⟨"G", none, none, .empty⟩ ∧
    (∀ step, -3 ≤ step → step < 5 →
      overridden.group "G" step = .ok ⟨"G", some "early", none, .empty⟩) ∧
    overridden.group "G" 5 = .ok ⟨"G", some "later", none, .empty⟩ ∧
    (overridden.overrideAll [(5, .empty), (3, .empty)]).group "G" 4 =
      .ok ⟨"G", some "early", none, .empty⟩ := by
  obtain ⟨answers, -, lasts, -, edited⟩ := group_follows_overrides overridden "G"
  have early : ∀ step, -3 ≤ step → step < 5 →
      overridden.group "G" step = .ok ⟨"G", some "early", none, .empty⟩ := by
    refine lasts (-3) 5 _ (by rw [definitionFrom_overridden]; rfl) fun between after before => ?_
    rw [definitionFrom_overridden, if_neg (by omega), if_neg (by omega)]
  refine ⟨?_, early, ?_, ?_⟩
  · refine (answers _ _).2 (.base (fun start started => ?_) rfl)
    rw [definitionFrom_overridden, if_neg (by omega), if_neg (by omega)]
  · have defined : overridden.definitionFrom "G" 5 = some ⟨"G", some "later", none, .empty⟩ := by
      rw [definitionFrom_overridden]
      rfl
    refine (answers _ _).2 (.override ⟨defined, Int.le_refl 5, fun later after soon => ?_⟩)
    omega
  · rw [edited 4 _ ?_, early 4 (by omega) (by omega)]
    intro edit listed
    simp only [List.mem_cons, List.not_mem_nil, or_false] at listed
    rcases listed with rfl | rfl
    · exact .inl (by decide)
    · refine .inr ⟨rfl, ?_⟩
      rw [definitionFrom_overridden]
      rfl

end Schedule
end WellControl
