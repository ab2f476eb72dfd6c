import WellControl.Constants.Basic

/-!
# Scopes of constants

A desk holds numbered sets of constants, one of which is current.  A scope makes its set current
when it is entered, remembers the one that was, and brings it back when it is left.  Scopes refer
to a set by its number, so a change of the set is seen wherever it is current.
-/

set_option autoImplicit false

namespace WellControl

structure Scope where
  /-- Number of the set that is current inside. -/
  inner : Nat
  /-- Number of the set to bring back, while one is remembered. -/
  outer : Option Nat
deriving DecidableEq, Repr

structure ConstantsDesk (α : Type) [Scalar α] where
  sets : List (Constants α)
  scopes : List Scope
  current : Nat

namespace ConstantsDesk
variable {α : Type} [Scalar α]

/-- Only the standard constants, which are current. -/
def initial : ConstantsDesk α := ⟨[.standard], [], 0⟩

def set (d : ConstantsDesk α) (i : Nat) : Constants α := d.sets.getD i .standard

def constants (d : ConstantsDesk α) : Constants α := d.set d.current

/-- Add a set; its number is the count of the sets before it. -/
def addSet (d : ConstantsDesk α) (c : Constants α) : Nat × ConstantsDesk α :=
  (d.sets.length, { d with sets := d.sets ++ [c] })

def changeSet (d : ConstantsDesk α) (i : Nat) (ch : Constants.Change α) :
    Outcome α (ConstantsDesk α) := do
  let c ← (d.set i).change ch
  return { d with sets := d.sets.set i c }

/-- Add a scope of a set; its number is the count of the scopes before it. -/
def addScope (d : ConstantsDesk α) (i : Nat) : Nat × ConstantsDesk α :=
  (d.scopes.length, { d with scopes := d.scopes ++ [⟨i, none⟩] })

/-- Make a scope's set current.  What the scope remembered before is overwritten. -/
def enter (d : ConstantsDesk α) (x : Nat) : ConstantsDesk α :=
  match d.scopes[x]? with
  | some s =>
    { d with
      scopes := d.scopes.set x { s with outer := some d.current }
      current := s.inner }
  | none => d

/-- Bring back what a scope remembers, and forget it. -/
def leave (d : ConstantsDesk α) (x : Nat) : ConstantsDesk α :=
  match d.scopes[x]? with
  | some ⟨inner, some outer⟩ =>
    { d with scopes := d.scopes.set x ⟨inner, none⟩, current := outer }
  | _ => d

end ConstantsDesk
end WellControl
