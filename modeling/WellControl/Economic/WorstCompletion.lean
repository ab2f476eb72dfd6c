import WellControl.Economic.Ratio
import WellControl.Ownership
import WellControl.State.Basic
import WellControl.Well.Basic

/-!
# The worst completion of a well

When a well exceeds a ratio limit, the ratio of each of its completions is compared with the
limit.  The report keeps the completion that is furthest above any limit checked so far.
-/

set_option autoImplicit false

namespace WellControl

structure RatioReport (α : Type) where
  violated : Bool
  /-- The completion furthest above its limit, or `noCompletion`. -/
  worst : Int
  /-- Its ratio over the limit. -/
  extent : α
deriving DecidableEq, Repr

def RatioReport.fresh {α : Type} [Scalar α] : RatioReport α := ⟨false, noCompletion, 0⟩

/-- A report under way, with the number of reductions made for it. -/
structure RatioProgress (α : Type) where
  report : RatioReport α
  reductions : Nat

/-- The highest ratio met so far, and the completion it was met at. -/
structure Highest (α : Type) where
  completion : Int
  ratio : α

/-- Whether the well of a state exceeds a limit on a ratio as a whole. -/
def WellState.exceeds {α : Type} [Scalar α] (s : WellState α) (k : RatioKind)
    (constants : Constants α) (t : PhaseTable) (limit : α) : Outcome α Bool := do
  return decide (limit < (← k.ratio constants t s.surface))

/-- What the ratios of a well are computed from. -/
structure RatioSource (α : Type) [Scalar α] where
  well : WellHeader α
  state : WellState α
  table : PhaseTable
  ownership : Ownership α
  constants : Constants α

namespace RatioSource
variable {α : Type} [Scalar α]

/-- Number of perforation rows that the well's connections refer to. -/
def rowsNeeded (r : RatioSource α) : Nat :=
  (r.well.connections.map Connection.number).foldl max 0

/-- Rates of the connections owned here, together. -/
def ownRates (r : RatioSource α) (connections : List Nat) : Outcome α (List α) :=
  (connections.filter fun (i : Nat) => r.ownership.isOwner i).foldlM
    (fun sum i =>
      match r.state.perforationRates.part? i with
      | some part => Rates.addPart sum part
      | none => .error .missingRate)
    r.table.zeros

/-- The highest ratio of the completions, counting reductions.  A later completion has to be
strictly higher. -/
def highest (r : RatioSource α) (k : RatioKind) :
    List (Int × List Nat) → Nat → Highest α → Outcome α (Highest α) × Nat
  | [], reductions, best => (.ok best, reductions)
  | (id, connections) :: rest, reductions, best =>
    match r.ownRates connections with
    | .error f => (.error f, reductions)
    | .ok rates =>
      match r.ownership.reduce reductions rates >>= k.ratio r.constants r.table with
      | .error f => (.error f, reductions + 1)
      | .ok x => highest r k rest (reductions + 1) (if best.ratio < x then ⟨id, x⟩ else best)

/-- Enter the highest ratio of the completions into a report, if it is further above its limit
than what is there.  At least one completion has to be above the limit. -/
def enter (report : RatioReport α) (limit : α) (best : Highest α) : Outcome α (RatioReport α) :=
  if limit < best.ratio ∧ best.completion ≠ noCompletion ∧ 1 < best.ratio / limit then
    if report.extent < best.ratio / limit then
      .ok { report with worst := best.completion, extent := best.ratio / limit }
    else .ok report
  else .error .brokenExpectation

def checkCompletions (r : RatioSource α) (k : RatioKind) (limit : α) (p : RatioProgress α) :
    Outcome α Unit × RatioProgress α :=
  if r.state.perforationRates.shape = [] then (.error .missingRate, p)
  else if r.state.perforationRates.extent < r.rowsNeeded then
    (.error (.missingPerforations r.well.name r.state.perforationRates.extent r.rowsNeeded), p)
  else
    match r.highest k r.well.completions p.reductions ⟨noCompletion, 0⟩ with
    | (.error f, n) => (.error f, { p with reductions := n })
    | (.ok best, n) =>
      match enter p.report limit best with
      | .error f => (.error f, { p with reductions := n })
      | .ok report => (.ok (), ⟨report, n⟩)

/-- Compare the well with a limit, and its completions if it exceeds it. -/
def checkLimit (r : RatioSource α) (k : RatioKind) (limit : Option (NonNegative α))
    (p : RatioProgress α) : Outcome α Unit × RatioProgress α :=
  match r.table.has k.phases.1 && r.table.has k.phases.2, EconomicLimits.active? limit with
  | true, some limit =>
    match r.state.exceeds k r.constants r.table limit.val with
    | .error f => (.error f, p)
    | .ok false => (.ok (), p)
    | .ok true =>
      r.checkCompletions k limit.val { p with report := { p.report with violated := true } }
  | _, _ => (.error .brokenExpectation, p)

end RatioSource
end WellControl
