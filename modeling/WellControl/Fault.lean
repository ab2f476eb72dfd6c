import WellControl.Control.Mode
import WellControl.Group.Mode

/-!
# Faults

Every way in which building a value or evaluating a well can fail, as a cause with its data.
`Fault.kind` sorts the causes into the kinds that a caller can tell apart; the wording is in
`WellControl.Fault.Message`.
-/

set_option autoImplicit false

namespace WellControl

/-- A number with the form it is written in. -/
inductive Number (α : Type) where
  | real (x : α)
  | whole (n : Int)
deriving DecidableEq, Repr

/-- The comparison a value has to pass against its bound. -/
inductive Relation where
  | above
  | atLeast
  | atMost
deriving DecidableEq, Repr

inductive Fault (α : Type) where
  /-- No member of the enumeration `title` is written as `text`. -/
  | notAMember (title text : String)
  /-- A field's value does not stand in the relation to its bound. -/
  | outOfRange (field : String) (relation : Relation) (bound value : Number α)
  /-- Array data whose parts differ in shape, or with too many axes. -/
  | ragged
  /-- An array was asked for with fewer than no rows. -/
  | negativeExtent
  /-- Arrays that are combined entry by entry do not fit one another. -/
  | misaligned
  | noActivePhase
  | duplicatePhases (phases : List Phase)
  | inactivePhase (phase : Phase)
  /-- A rate array has no entry at an active phase's position. -/
  | missingRate
  /-- Dissolution and vaporization ratios whose product reaches one. -/
  | inseparable
  | rateCount (expected : Nat) (shape : List Nat)
  | undefinedRegion (fip pvt : Int)
  | negativeLimit (field : String) (value : α)
  | completionNumber (value : Int)
  | duplicateConnections (indices : List Nat)
  | duplicateWells (names : List String)
  | surfaceRatesShape
  | reservoirRatesShape (well : String) (shape expected : List Nat)
  | potentialsShape (well : String) (shape expected : List Nat)
  | perforationRatesShape (well : String) (phases : Nat) (shape : List Nat)
  | duplicateState (well : String)
  | undefinedGroup (group : String) (step : Int)
  | noProductionQuantity (mode : GroupProductionMode)
  | noInjectionQuantity (mode : GroupInjectionMode)
  /-- An injector of a mixture was asked for the phase it injects. -/
  | injectedPhase (well : String) (fluid : InjectedFluid)
  | missingPerforations (well : String) (available expected : Nat)
  /-- Two rates that make up a ratio flow in opposite directions. -/
  | opposedRates
  | brokenExpectation
  | unlisted (name : String)
  | unknownConstant
  /-- An injector was asked for what only producers have, or the other way round. -/
  | otherKindOfWell
deriving DecidableEq, Repr

namespace Fault

inductive Kind where
  /-- A written name or a number is outside what its field admits. -/
  | value
  /-- Data that contradicts other data or is not defined. -/
  | validation
  | phase
  | injector
  /-- The evaluation met rates it rules out. -/
  | assertion
  | lookup
  /-- A constant, or a part of a well, does not exist. -/
  | absent
  | position
deriving DecidableEq, Repr

variable {α : Type}

def kind : Fault α → Kind
  | notAMember .. | outOfRange .. | ragged | negativeExtent | misaligned => .value
  | noActivePhase | duplicatePhases _ | inseparable | rateCount .. | undefinedRegion ..
  | negativeLimit .. | completionNumber _ | duplicateConnections _ | duplicateWells _
  | surfaceRatesShape | reservoirRatesShape .. | potentialsShape .. | perforationRatesShape ..
  | duplicateState _ | undefinedGroup .. | noProductionQuantity _ | noInjectionQuantity _
  | missingPerforations .. => .validation
  | inactivePhase _ => .phase
  | injectedPhase .. => .injector
  | opposedRates | brokenExpectation => .assertion
  | unlisted _ => .lookup
  | unknownConstant | otherKindOfWell => .absent
  | missingRate => .position

end Fault

/-- A value, or the reason why there is none. -/
abbrev Outcome (α β : Type) := Except (Fault α) β

def Enumeration.read {α τ : Type} [Enumeration τ] (text : String) : Outcome α τ :=
  match Enumeration.find? text with
  | some x => .ok x
  | none => .error (.notAMember (Enumeration.title τ) text)

end WellControl
