import WellControl.Proofs.Control.Faults
import WellControl.Proofs.Control.Frame
import WellControl.Proofs.Plain
import WellControl.Session.Controls

/-! # What a well's share depends on

A group's target for a well is shared with the wells that do the same for the group: its producers,
or its injectors of the same phase (`Wells.sharing`).  Of all else that a check is made in
(`Surroundings`), the answer depends on what is taken off the target, on the names of these wells in
their order, and on the guide rates and surface rates that belong to these names and the well's own
(`ShareQuery.byGuideRate_inside`).  No other well has a part in it
(`Evaluator.group_check_follows_sharers`). -/
set_option autoImplicit false

namespace WellControl
variable {α : Type} [Scalar α]

/-! ## Surroundings -/

def Wells.sharing (ws : Wells α) (group : String) : Demand → List String
  | .production => (ws.producers.filter fun w => w.groupName = group).map fun w => w.name
  | .injection p =>
    (ws.injectors.filter fun w => w.groupName = group ∧ w.controls.fluid.phase? = some p).map
      fun w => w.name

/-- All that a group helper may read beside the well and its group. -/
structure Surroundings (α : Type) [Scalar α] where
  schedule : Schedule α
  reductions : Reductions α
  guideRates : Option (GuideRates α)
  states : WellStates α

namespace Surroundings

def off (u : Surroundings α) (group : String) : Demand → Option (List α)
  | .production => u.reductions.production.get? group
  | .injection _ => u.reductions.injection.get? group

def guideRate? (u : Surroundings α) (name : String) : Option α :=
  u.guideRates.bind (·.get? name)

def surfaceRates? (u : Surroundings α) (name : String) : Option (Grid α) :=
  (u.states.get? name).map WellState.surfaceRates

/-- Two surroundings of a well in which as much is taken off a target, and the same wells share what
remains, with the same guide rates and surface rates. -/
structure Agree (well group : String) (d : Demand) (u v : Surroundings α) : Prop where
  off : v.off group d = u.off group d
  sharing : v.schedule.wells.sharing group d = u.schedule.wells.sharing group d
  guideRate : ∀ name ∈ well :: u.schedule.wells.sharing group d,
    v.guideRate? name = u.guideRate? name
  surfaceRates : ∀ name ∈ well :: u.schedule.wells.sharing group d,
    v.surfaceRates? name = u.surfaceRates? name

end Surroundings

/-! ## The answer of the helper -/

namespace ShareQuery
variable {q : ShareQuery α} {v : Surroundings α}

def surroundings (q : ShareQuery α) : Surroundings α :=
  ⟨q.schedule, q.reductions, q.guideRates, q.states⟩

def inside (q : ShareQuery α) (v : Surroundings α) : ShareQuery α :=
  { q with
    schedule := v.schedule
    reductions := v.reductions
    guideRates := v.guideRates
    states := v.states }

theorem names_siblings (q : ShareQuery α) :
    q.siblings.map Well.name = q.schedule.wells.sharing q.group.name q.demand := by
  unfold siblings Wells.inGroup Wells.all Wells.sharing
  rw [List.filter_filter, List.filter_append, List.filter_map, List.filter_map, List.map_append,
    List.map_map, List.map_map]
  -- Either demand filters out one of the two lists that the wells consist of.
  cases q.demand with
  | production =>
    simp only [Function.comp_def, Bool.false_and, Bool.true_and, List.filter_false]
    rfl
  | injection p =>
    simp only [Function.comp_def, Bool.false_and, List.filter_false, Bool.decide_and, List.map_nil,
      List.append_nil]
    congr 1
    apply List.filter_congr
    intro w _
    exact Bool.and_comm _ _

theorem mapM_siblings (q : ShareQuery α) (weight : String → Outcome α α) :
    q.siblings.mapM (fun w => weight w.name) =
      (q.schedule.wells.sharing q.group.name q.demand).mapM weight := by
  rw [← names_siblings, List.mapM_map]
  rfl

theorem guideRate_eq_match (q : ShareQuery α) (quantity : RateQuantity α) (name : String) :
    q.guideRate quantity name =
      match q.surroundings.guideRate? name, q.surroundings.surfaceRates? name with
      | some rate, _ => .ok (Scalar.larger rate 0)
      | none, some rates => do return Scalar.larger (← quantity rates) 0
      | none, none => .ok 0 := by
  have given : q.surroundings.guideRate? name = q.guideRates.bind (·.get? name) := rfl
  have listed : q.surroundings.surfaceRates? name =
    (q.states.get? name).map WellState.surfaceRates := rfl
  rw [guideRate, given, listed]
  cases q.guideRates.bind (·.get? name) with
  | some rate => rfl
  | none => cases q.states.get? name <;> rfl

abbrev AgreesIn (q : ShareQuery α) (v : Surroundings α) : Prop :=
  Surroundings.Agree q.well q.group.name q.demand q.surroundings v

theorem guideRate_inside (agree : q.AgreesIn v) (quantity : RateQuantity α) {name : String}
    (read : name ∈ q.well :: q.schedule.wells.sharing q.group.name q.demand) :
    (q.inside v).guideRate quantity name = q.guideRate quantity name := by
  rw [guideRate_eq_match, guideRate_eq_match, ← agree.guideRate name read,
    ← agree.surfaceRates name read]
  rfl

theorem fraction_inside (agree : q.AgreesIn v) (quantity : RateQuantity α) :
    (q.inside v).fraction quantity = q.fraction quantity := by
  have same : (q.inside v).schedule.wells.sharing (q.inside v).group.name (q.inside v).demand =
    q.schedule.wells.sharing q.group.name q.demand := agree.sharing
  have weights : (q.inside v).siblings.mapM (fun w => (q.inside v).guideRate quantity w.name) =
      q.siblings.mapM fun w => q.guideRate quantity w.name := by
    rw [mapM_siblings, mapM_siblings, same]
    exact Outcome.mapM_congr fun name read =>
      guideRate_inside agree quantity (List.mem_cons_of_mem q.well read)
  have own : (q.inside v).guideRate quantity (q.inside v).well = q.guideRate quantity q.well :=
    guideRate_inside agree quantity List.mem_cons_self
  rw [fraction, fraction, weights, own]
  rfl

theorem settle_inside (agree : q.AgreesIn v) (target : α) (quantity : RateQuantity α)
    (off : List α) : (q.inside v).settle target quantity off = q.settle target quantity off := by
  rw [settle, settle, fraction_inside agree]
  rfl

theorem byGuideRate_inside (agree : q.AgreesIn v) : byGuideRate (q.inside v) = byGuideRate q := by
  have off := agree.off
  unfold byGuideRate Reductions.off
  simp only [settle_inside agree]
  cases demand : q.demand with
  | production =>
    rw [demand] at off
    have same : (q.inside v).reductions.production.get? (q.inside v).group.name =
        q.reductions.production.get? q.group.name := off
    rw [same, show (q.inside v).demand = .production from demand]
    rfl
  | injection p =>
    rw [demand] at off
    have same : (q.inside v).reductions.injection.get? (q.inside v).group.name =
        q.reductions.injection.get? q.group.name := off
    rw [same, show (q.inside v).demand = .injection p from demand]
    rfl

end ShareQuery

/-! ## The check -/

namespace Evaluator
variable {e e' : Evaluator α} {setting setting' : Setting α} {states states' : WellStates α}

def surroundings (e : Evaluator α) (setting : Setting α) (states : WellStates α) : Surroundings α :=
  ⟨setting.schedule, setting.reductions, e.guideRates, states⟩

/-- Two evaluators of one well that share targets by guide rate, under one definition of the well's
group, in surroundings that agree for it. -/
structure SharesAlike (e e' : Evaluator α) (setting setting' : Setting α)
    (states states' : WellStates α) : Prop where
  well : e'.well = e.well
  table : e'.table = e.table
  converter : e'.converter = e.converter
  step : e'.step = e.step
  helper : e.helper = ShareQuery.byGuideRate
  helper' : e'.helper = ShareQuery.byGuideRate
  group : setting'.schedule.group? e.well.groupName e.step =
    setting.schedule.group? e.well.groupName e.step
  agree : ∀ g d, setting.schedule.group? e.well.groupName e.step = some g →
    e.well.demand = .ok d → Surroundings.Agree e.name g.name d (e.surroundings setting states)
      (e'.surroundings setting' states')

namespace SharesAlike

theorem shareQuery (alike : e.SharesAlike e' setting setting' states states')
    (constants : Constants α) (rates : Grid α) (g : WellGroup α) (d : Demand) (cs : List α) :
    e'.shareQuery setting' constants states' rates g d cs =
      (e.shareQuery setting constants states rates g d cs).inside
        (e'.surroundings setting' states') := by
  simp only [Evaluator.shareQuery, Evaluator.name, alike.well, alike.table, alike.step]
  rfl

theorem groupQuestion (alike : e.SharesAlike e' setting setting' states states')
    (constants : Constants α) (s : WellState α) :
    Outcome.Alike (fun q q' => ShareQuery.byGuideRate q' = ShareQuery.byGuideRate q)
      (e.groupQuestion setting constants states s)
      (e'.groupQuestion setting' constants states' s) := by
  unfold Evaluator.groupQuestion groupAndCoefficients Schedule.group
  rw [alike.well, alike.converter, alike.step, alike.group]
  -- What fails before there is a question reads no surroundings.
  cases demand : e.well.demand with
  | error fault => exact .error fault
  | ok d =>
    cases found : setting.schedule.group? e.well.groupName e.step with
    | none => exact .error _
    | some g =>
      simp only [Outcome.ok_bind]
      cases e.converter.coefficients constants.fipRegion e.well.header.pvtRegion with
      | error fault => exact .error fault
      | ok cs =>
        refine .ok ?_
        rw [alike.shareQuery]
        exact ShareQuery.byGuideRate_inside (alike.agree g d found demand)

theorem groupSwitch (alike : e.SharesAlike e' setting setting' states states')
    (constants : Constants α) (s : WellState α) :
    e'.groupSwitch setting' constants states' s = e.groupSwitch setting constants states s := by
  have questions := alike.groupQuestion constants s
  rw [groupSwitch_eq, groupSwitch_eq, alike.well, alike.helper, alike.helper']
  generalize e.groupQuestion setting constants states s = asked,
    e'.groupQuestion setting' constants states' s = asked' at questions
  cases questions with
  | error fault => rfl
  | ok same => simp only [Outcome.ok_bind, same]

end SharesAlike

end Evaluator

/-- A session that checks a well against its group answers, and leaves the well, as another session
does in which the well shares alike. -/
theorem Session.checkGroup_alike {r r' : Session α} {label label' : String} {e e' : Evaluator α}
    (found : r.evaluator label = .ok e) (found' : r'.evaluator label' = .ok e')
    (alike : e.SharesAlike e' r.setting r'.setting r.world.states r'.world.states)
    (constants : r'.world.constants = r.world.constants)
    (own : r'.world.states.get? e.name = r.world.states.get? e.name) :
    Outcome.Alike (fun a a' => a'.1 = a.1 ∧
        a'.2.world.states.get? e.name = a.2.world.states.get? e.name)
      (r.checkGroup label) (r'.checkGroup label') := by
  have name : e'.name = e.name := congrArg Well.name alike.well
  simp only [checkGroup, switch, found, found', Outcome.ok_bind, name, WellStates.state, own]
  cases listed : r.world.states.get? e.name with
  | none => exact .error _
  | some s =>
    simp only [Outcome.ok_bind, constants, alike.groupSwitch]
    refine .bind_same rfl fun switched => .ok ⟨rfl, ?_⟩
    rw [World.state_withState_self _ listed, World.state_withState_self _ (own.trans listed)]

/-! ## Wells with no part in a share -/

/-- The well has no part in the share of what a group's wells do. -/
def Well.Apart (w : Well α) (group : String) : Demand → Prop
  | .production => w.groupName ≠ group ∨ w.producer? = none
  | .injection p => w.groupName ≠ group ∨
    ∀ v, w.injector? = some v → v.controls.fluid.phase? ≠ some p

namespace Wells
variable {ws : Wells α} {dropped : Well α → Bool} {group : String} {d : Demand}

def without (ws : Wells α) (dropped : Well α → Bool) : Wells α where
  injectors := ws.injectors.filter fun w => !dropped (.injector w)
  producers := ws.producers.filter fun w => !dropped (.producer w)

theorem injector_mem_all {w : Injector α} (listed : w ∈ ws.injectors) : .injector w ∈ ws.all :=
  List.mem_append_left _ (List.mem_map.2 ⟨w, listed, rfl⟩)

theorem producer_mem_all {w : Producer α} (listed : w ∈ ws.producers) : .producer w ∈ ws.all :=
  List.mem_append_right _ (List.mem_map.2 ⟨w, listed, rfl⟩)

/-- Dropping what a filter does not keep anyway changes nothing. -/
theorem filter_of_dropped {β : Type} {xs : List β} {kept dropped : β → Bool}
    (unkept : ∀ x ∈ xs, dropped x = true → kept x = false) :
    (xs.filter fun x => !dropped x).filter kept = xs.filter kept := by
  rw [List.filter_filter]
  apply List.filter_congr
  intro x listed
  cases gone : dropped x with
  | false => exact Bool.and_true _
  | true => rw [unkept x listed gone, Bool.false_and]

theorem sharing_without (apart : ∀ w ∈ ws.all, dropped w = true → w.Apart group d) :
    (ws.without dropped).sharing group d = ws.sharing group d := by
  cases d with
  | production =>
    rw [sharing, sharing, without, filter_of_dropped]
    intro w listed gone
    rcases apart _ (producer_mem_all listed) gone with elsewhere | injects
    · exact decide_eq_false elsewhere
    · cases injects
  | injection p =>
    rw [sharing, sharing, without, filter_of_dropped]
    intro w listed gone
    apply decide_eq_false
    rintro ⟨member, phase⟩
    rcases apart _ (injector_mem_all listed) gone with elsewhere | otherwise
    · exact elsewhere member
    · exact otherwise w rfl phase

end Wells

def Setting.without (setting : Setting α) (dropped : Well α → Bool) : Setting α :=
  { setting with schedule :=
    { setting.schedule with wells := setting.schedule.wells.without dropped } }

namespace Evaluator

/-- What a check against a group by guide rates answers is determined by the well, its group's
definition and what is taken off it, and the guide rates and surface rates of the well and of those
that share with it.  All other wells may be dropped. -/
theorem group_check_follows_sharers :
    (∀ (e e' : Evaluator α) (setting setting' : Setting α) (states states' : WellStates α),
      e.SharesAlike e' setting setting' states states' → ∀ (constants : Constants α)
        (s : WellState α), e'.groupSwitch setting' constants states' s =
          e.groupSwitch setting constants states s) ∧
    (∀ (r r' : Session α) (label label' : String) (e e' : Evaluator α),
      r.evaluator label = .ok e → r'.evaluator label' = .ok e' →
      e.SharesAlike e' r.setting r'.setting r.world.states r'.world.states →
      r'.world.constants = r.world.constants →
      r'.world.states.get? e.name = r.world.states.get? e.name →
      Outcome.Alike (fun a a' => a'.1 = a.1 ∧
          a'.2.world.states.get? e.name = a.2.world.states.get? e.name)
        (r.checkGroup label) (r'.checkGroup label')) ∧
    (∀ (e : Evaluator α) (setting : Setting α) (dropped : Well α → Bool),
      e.helper = ShareQuery.byGuideRate →
      (∀ g d, setting.schedule.group? e.well.groupName e.step = some g → e.well.demand = .ok d →
        ∀ w ∈ setting.schedule.wells.all, dropped w = true → w.Apart g.name d) →
      ∀ (constants : Constants α) (states : WellStates α) (s : WellState α),
        e.groupSwitch (setting.without dropped) constants states s =
          e.groupSwitch setting constants states s) := by
  refine ⟨fun e e' setting setting' states states' alike => alike.groupSwitch,
    fun r r' label label' e e' => Session.checkGroup_alike, ?_⟩
  intro e setting dropped helper apart constants states s
  apply SharesAlike.groupSwitch
  refine ⟨rfl, rfl, rfl, rfl, helper, helper, rfl, fun g d found demand => ?_⟩
  exact ⟨rfl, Wells.sharing_without (apart g d found demand), fun _ _ => rfl, fun _ _ => rfl⟩

section Example

def waterGroup (name : String) (target : NonNegative ℚ) : WellGroup ℚ :=
  ⟨name, none, none, Catalog.empty.put .water ⟨.rate, some target, none⟩⟩

def injectorOf (name group : String) (fluid : InjectedFluid) : Injector ℚ :=
  { WellHeader.plain name group with controls := .free fluid }

def unguided : Evaluator ℚ := .plain (.injector (injectorOf "I" "G" .water))

def guided : Evaluator ℚ :=
  { unguided with guideRates := some (.ofList [("M", 9), ("K", 4), ("P", 2)]) }

/-- Two injectors of water share a target by their current rates. -/
def quiet : Session ℚ where
  config := .standard
  table := .blackOil
  evaluators := Catalog.empty.put "I" unguided
  scheduled := ["I"]
  setting :=
    { schedule :=
        { groups := Catalog.empty.put "G" (waterGroup "G" ⟨45, by decide +kernel⟩)
          wells := ⟨[injectorOf "I" "G" .water, injectorOf "J" "G" .water], []⟩
          overrides := .empty }
      reductions := ⟨.empty, .empty⟩ }
  world := .ofStates [.flowing "I" (40, 0, 0) [], .flowing "J" (20, 0, 0) []]

/-- The two among injectors of a mixture, of gas and for another group, and a producer. -/
def crowded : Session ℚ where
  config := .standard
  table := .blackOil
  evaluators := Catalog.empty.put "first" guided
  scheduled := ["first"]
  setting :=
    { schedule :=
        { groups := .ofList [("H", waterGroup "H" ⟨8, by decide +kernel⟩),
            ("G", waterGroup "G" ⟨45, by decide +kernel⟩)]
          wells := ⟨[injectorOf "M" "G" .multi, injectorOf "I" "G" .water,
            injectorOf "K" "H" .water, injectorOf "V" "G" .gas, injectorOf "J" "G" .water],
            [.plain "P" "G"]⟩
          overrides := Catalog.empty.put 0
            (Catalog.empty.put "H" (waterGroup "H" ⟨7, by decide +kernel⟩)) }
      reductions := ⟨Catalog.empty.put "G" [1, 2, 3], Catalog.empty.put "H" [4, 0, 0]⟩ }
  world := .ofStates [.flowing "I" (40, 0, 0) [], .flowing "M" (80, 0, 0) [],
    .flowing "V" (0, 0, 50) [], .flowing "P" (-30, -10, -5) [],
    { WellState.flowing "J" (20, 0, 0) [] with bhp := 250 }]

theorem crowded_sharesAlike : unguided.SharesAlike guided quiet.setting crowded.setting
    quiet.world.states crowded.world.states := by
  refine ⟨rfl, rfl, rfl, rfl, rfl, rfl, rfl, fun g d found demand => ?_⟩
  cases found
  cases demand
  have shared : ∀ {P : String → Prop}, P "I" → P "J" → ∀ name ∈ ["I", "I", "J"], P name := by
    intro P first second name read
    rcases List.mem_cons.1 read with rfl | read
    · exact first
    rcases List.mem_cons.1 read with rfl | read
    · exact first
    rw [List.mem_singleton.1 read]
    exact second
  exact ⟨rfl, rfl, shared rfl rfl, shared rfl rfl⟩

def injectsNoWater : Well ℚ → Bool
  | .injector w => decide (w.groupName ≠ "G" ∨ w.controls.fluid ≠ .water)
  | .producer _ => true

theorem apart_of_injectsNoWater {w : Well ℚ} (other : injectsNoWater w = true) :
    w.Apart "G" (.injection .water) := by
  cases w with
  | injector w =>
    rcases of_decide_eq_true other with elsewhere | fluid
    · exact .inl elsewhere
    · refine .inr fun v own => ?_
      obtain rfl := Option.some.inj own
      cases injected : w.controls.fluid with
      | water => exact absurd injected fluid
      | oil | gas | multi => decide
  | producer w => exact .inr fun v own => by cases own

theorem crowded_follows_sharers :
    guided.groupSwitch crowded.setting .standard crowded.world.states (.flowing "I" (35, 0, 0) []) =
      unguided.groupSwitch quiet.setting .standard quiet.world.states
        (.flowing "I" (35, 0, 0) []) ∧
    (∃ a a', quiet.checkGroup "I" = .ok (true, a) ∧ crowded.checkGroup "first" = .ok (true, a') ∧
      a'.world.states.get? "I" = a.world.states.get? "I") ∧
    guided.groupSwitch (crowded.setting.without injectsNoWater) .standard crowded.world.states
        (.flowing "I" (35, 0, 0) []) =
      guided.groupSwitch crowded.setting .standard crowded.world.states
        (.flowing "I" (35, 0, 0) []) := by
  obtain ⟨sees, answers, drops⟩ := group_check_follows_sharers (α := ℚ)
  refine ⟨sees _ _ _ _ _ _ crowded_sharesAlike _ _, ?_, drops _ _ _ rfl ?_ _ _ _⟩
  · have alike := answers quiet crowded "I" "first" _ _ rfl rfl crowded_sharesAlike rfl rfl
    have switched : (quiet.checkGroup "I").map Prod.fst = .ok true := by decide +kernel
    generalize quiet.checkGroup "I" = answer, crowded.checkGroup "first" = answer' at *
    cases alike with
    | error fault => cases switched
    | @ok b c related =>
      obtain ⟨same, left⟩ := related
      have yes : b.1 = true := Except.ok.inj switched
      exact ⟨b.2, c.2, by rw [← yes], by rw [← yes, ← same], left⟩
  · intro g d found demand w _ dropped
    cases found
    cases demand
    exact apart_of_injectsNoWater dropped

end Example

end Evaluator

end WellControl
