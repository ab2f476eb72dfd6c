import WellControl.Session.Basic

/-!
# Economic checks in a session
-/

set_option autoImplicit false

namespace WellControl

namespace Session
variable {α : Type} [Scalar α]

/-- Check the minimum rates of a well on its own rates or on others. -/
def checkRates (s : Session α) (label : String) (rates : Option (List α)) :
    Outcome α Bool × Session α :=
  let checked : Outcome α (Bool × Journal) := do
    let e ← s.evaluator label
    let rates ← match rates with
      | some rates => pure rates
      | none => WellState.surface <$> s.world.states.state label
    (← e.producer).limits.checkRates e.table rates
  match checked with
  | .error f => (.error f, s)
  | .ok (violated, notices) =>
    (.ok violated, { s with world := { s.world with journal := s.world.journal ++ notices } })

/-- What a check of ratios leaves: the report, how often the rates of the well were reduced so
far, and the fault it ended with. -/
structure RatioAnswer (α : Type) where
  report : RatioReport α
  reductions : Nat
  fault : Option (Fault α)

/-- A check of ratios that takes a report further. -/
abbrev RatioCheck (α : Type) := RatioProgress α → Outcome α Unit × RatioProgress α × Journal

/-- Run a check of a well's ratios on a report, which stays as it is if there is no such check. -/
def checkWithReport (s : Session α) (label : String) (report : RatioReport α)
    (check : Evaluator α → Outcome α (RatioCheck α)) :
    Outcome α (RatioAnswer α × Session α) := do
  let e ← s.evaluator label
  let (outcome, progress, notices) := match check e with
    | .ok check => check ⟨report, 0⟩
    | .error f => (.error f, ⟨report, 0⟩, [])
  let world := s.world.withBooks e.label
    ⟨s.world.closures, s.world.journal ++ notices, progress.reductions⟩
  let fault := match outcome with
    | .ok () => none
    | .error f => some f
  return (⟨progress.report, world.reductionsOf e.label, fault⟩, { s with world })

def ratioSource (s : Session α) (e : Evaluator α) : Outcome α (RatioSource α) := do
  return e.ratioSource s.world.constants (← s.world.states.state e.label)

def checkRatios (s : Session α) (label : String) (report : RatioReport α) :
    Outcome α (RatioAnswer α × Session α) :=
  s.checkWithReport label report fun e => do
    let source ← s.ratioSource e
    let w ← e.producer
    return source.checkRatios w.limits

/-- Check one ratio limit of a well.  The limit is looked up before the state. -/
def checkRatio (s : Session α) (label : String) (k : RatioKind) (report : RatioReport α) :
    Outcome α (RatioAnswer α × Session α) :=
  s.checkWithReport label report fun e => do
    let w ← e.producer
    let source ← s.ratioSource e
    return fun progress =>
      let (outcome, progress) := source.checkLimit k (k.limit w.limits) progress
      (outcome, progress, [])

def checkCompletions (s : Session α) (label : String) (k : RatioKind) (limit : α)
    (report : RatioReport α) : Outcome α (RatioAnswer α × Session α) :=
  s.checkWithReport label report fun e => do
    let source ← s.ratioSource e
    return fun progress =>
      let (outcome, progress) := source.checkCompletions k limit progress
      (outcome, progress, [])

/-- Whether the well of a state exceeds a ratio limit as a whole.  Its definition is not needed. -/
def exceedsRatio (s : Session α) (label : String) (k : RatioKind) (limit : α) :
    Outcome α Bool := do
  let state ← s.world.states.state label
  state.exceeds k s.world.constants s.table limit

/-- Write down what comes of an evaluation of a well. -/
def book (s : Session α) (label : String)
    (act : Evaluator α → WellState α → Books α → Outcome α Unit × Books α) :
    Outcome α Unit × Session α :=
  match s.evaluatorAndState label with
  | .error f => (.error f, s)
  | .ok (e, state) =>
    let (outcome, books) := act e state s.world.books
    (outcome, { s with world := s.world.withBooks e.label books })

/-- The economic review alone.  An injector has no limits to review, which shows only if the
review gets to them. -/
def reviewEconomics (s : Session α) (label : String) (time : α) : Outcome α Unit × Session α :=
  s.book label fun e state books =>
    match e.producer with
    | .ok w => w.settle (e.ratioSource s.world.constants state) time e.writeMessages books
    | .error f =>
      if books.closures.exempts e.name state then (.ok (), books) else (.error f, books)

/-- The physical check and the economic review, for a producer that is predicted. -/
def updateBooks (s : Session α) (label : String) (time : α) : Outcome α Unit × Session α :=
  s.book label fun e state books => e.updateBooks s.world.constants state time books

end Session
end WellControl
