import WellControl.Control.Evaluator
import WellControl.Economic.Checks

/-!
# Economic review of producers

A review comes to a verdict: leave the well as it is, close it, or close its worst completion.
A verdict is then carried out on the closure record.
-/

set_option autoImplicit false

namespace WellControl

inductive Verdict where
  | keep
  | closeForRate
  | closeForRatio
  | closeCompletion (completion : Int)
deriving DecidableEq, Repr

/-- A verdict, what is reported on the way to it, and the reductions it took. -/
structure Review (α : Type) where
  verdict : Outcome α Verdict
  notices : Journal
  reductions : Nat

/-- Whether a review leaves a well alone, since it is stopped or was closed by an earlier one. -/
def ClosureRecord.exempts {α : Type} (c : ClosureRecord α) (name : String) (s : WellState α) :
    Bool :=
  s.isStopped || c.hasWell name (some .economic)

namespace Producer
variable {α : Type} [Scalar α]

def closingNotices (w : Producer α) : Journal :=
  (if w.limits.endRun then
    [.warning "NOT_SUPPORTING_ENDRUN"
      ("ending run after well closed due to economic limits is not supported yet\n" ++
        "the program will keep running after " ++ w.name ++ " is closed")]
    else []) ++
  if w.limits.hasFollowonWell then
    [.warning "NOT_SUPPORTING_FOLLOWONWELL"
      "opening following on well after well closed is not supported yet"]
  else []

/-- What the workover policy makes of a violated ratio limit. -/
def workoverVerdict (w : Producer α) (report : RatioReport α) : Verdict × Journal :=
  match w.limits.workover with
  | .con => (.closeCompletion report.worst, [])
  | .well => (.closeForRatio, [])
  | .none => (.keep, [])
  | .conPlus | .plug | .last | .red =>
    (.keep, [.warning "NOT_SUPPORTED_WORKOVER_TYPE"
      ("not supporting workover type " ++ (Enumeration.name w.limits.workover).toUpper)])

/-- Review the ratios, if a limit on one is on. -/
def reviewRatios (w : Producer α) (source : RatioSource α) (notices : Journal) : Review α :=
  if w.limits.anyRatioLimit then
    match source.checkRatios w.limits ⟨.fresh, 0⟩ with
    | (.error f, p, more) => ⟨.error f, notices ++ more, p.reductions⟩
    | (.ok (), p, more) =>
      if p.report.violated then
        let (verdict, last) := w.workoverVerdict p.report
        ⟨.ok verdict, notices ++ more ++ last, p.reductions⟩
      else ⟨.ok .keep, notices ++ more, p.reductions⟩
  else ⟨.ok .keep, notices, 0⟩

/-- The quantities that minimum rates are compared with. -/
def reviewedRates (w : Producer α) (s : WellState α) : List α :=
  match w.limits.quantityLimit with
  | .potn => s.potential
  | .rate => s.surface

/-- Review the rates, if a limit on one is on, and the ratios unless a rate is violated. -/
def reviewRates (w : Producer α) (source : RatioSource α) : Review α :=
  if w.limits.anyRateLimit then
    match w.limits.checkRates source.table (w.reviewedRates source.state) with
    | .error f => ⟨.error f, [], 0⟩
    | .ok (true, notices) => ⟨.ok .closeForRate, notices ++ w.closingNotices, 0⟩
    | .ok (false, notices) => w.reviewRatios source notices
  else w.reviewRatios source []

/-- Review a well.  One that is stopped, was closed by an earlier review, or has no limits is
left alone. -/
def review (w : Producer α) (source : RatioSource α) (closures : ClosureRecord α) : Review α :=
  if closures.exempts w.name source.state || !w.limits.anyLimit then
    ⟨.ok .keep, [], 0⟩
  else w.reviewRates source

/-- Whether every open connection belongs to a closed completion. -/
def isPlugged (w : Producer α) (closures : ClosureRecord α) : Bool :=
  w.openConnections.all fun c => closures.hasCompletion w.name c.completionId

def completionMessage (w : Producer α) (completion : Int) : Record :=
  .info ((if completion < 0 then "Connection " ++ toString (-completion)
      else "Completion " ++ toString completion) ++
    " for well " ++ w.name ++ " will be closed due to economic limit")

/-- Carry out a verdict.  When the last open completion of a well is closed, so is the well. -/
def carryOut (w : Producer α) (time : α) (closures : ClosureRecord α) :
    Verdict → ClosureRecord α × Journal
  | .keep => (closures, [])
  | .closeForRate =>
    ((closures.closeWell w.name .economic time).2,
      [.info ("well " ++ w.name ++ " will be " ++ w.closedVerb ++ " due to rate economic limit")])
  | .closeForRatio =>
    ((closures.closeWell w.name .economic time).2,
      [.info (w.name ++ " will be " ++ w.closedVerb ++ " due to ratio economic limit")])
  | .closeCompletion completion =>
    let closures := (closures.closeCompletion w.name completion time).2
    if w.isPlugged closures then
      ((closures.closeWell w.name .economic time).2,
        [w.completionMessage completion,
          .info (w.name ++ " will be " ++ w.closedVerb ++ " due to last completion closed")])
    else (closures, [w.completionMessage completion])

/-- Review a well and write down what comes of it. -/
def settle (w : Producer α) (source : RatioSource α) (time : α) (writeMessages : Bool)
    (b : Books α) : Outcome α Unit × Books α :=
  let review := w.review source b.closures
  let b := { b with
    journal := b.journal ++ review.notices
    reductions := b.reductions + review.reductions }
  match review.verdict with
  | .error f => (.error f, b)
  | .ok verdict =>
    let (closures, messages) := w.carryOut time b.closures verdict
    (.ok (), { b with closures, journal := b.journal ++ if writeMessages then messages else [] })

end Producer

namespace Evaluator
variable {α : Type} [Scalar α]

def producer (e : Evaluator α) : Outcome α (Producer α) :=
  match e.well with
  | .producer w => .ok w
  | .injector _ => .error .otherKindOfWell

/-- What the ratios of the well are computed from. -/
def ratioSource (e : Evaluator α) (constants : Constants α) (s : WellState α) : RatioSource α :=
  { well := e.well.header, state := s, table := e.table, ownership := e.ownership, constants }

/-- Update the books for a well.  Only producers that are predicted are considered; the physical
check comes before the economic review. -/
def updateBooks (e : Evaluator α) (constants : Constants α) (s : WellState α) (time : α)
    (b : Books α) : Outcome α Unit × Books α :=
  match e.well with
  | .injector _ => (.ok (), b)
  | .producer w =>
    if w.controls.prediction then
      let checked := match e.physical with
        | some check => check w s time e.writeMessages b
        | none => (.ok (), b)
      match checked with
      | (.error f, b) => (.error f, b)
      | (.ok (), b) => w.settle (e.ratioSource constants s) time e.writeMessages b
    else (.ok (), b)

end Evaluator
end WellControl
