import WellControl.Range

/-!
# Connections and completions

A well is connected to the reservoir at numbered places.  Connections with one completion number
are closed together; a connection without a number is a completion of its own, under the negated
number of the connection, counted from one.
-/

set_option autoImplicit false

namespace WellControl

inductive ConnectionState where
  | open
  | shut
deriving DecidableEq, Repr

instance : Enumeration ConnectionState where
  title := "ConnectionState"
  members := [.open, .shut]
  name
    | .open => "open"
    | .shut => "shut"

structure Connection where
  /-- Row of the connection in the well's perforation rates. -/
  index : Nat
  completion : Option { n : Int // 0 < n }
  state : ConnectionState
deriving DecidableEq

structure Connection.Draft where
  index : Int
  completion : Option Int := none
  state : String := "open"

namespace Connection

def ofDraft {α : Type} (d : Draft) : Outcome α Connection := do
  let state ← Enumeration.read d.state
  let index ← checkNatural "index" d.index
  match d.completion with
  | none => return ⟨index, none, state⟩
  | some n =>
    if positive : 0 < n then return ⟨index, some ⟨n, positive⟩, state⟩
    else .error (.completionNumber n)

/-- Number of the connection, counted from one. -/
def number (c : Connection) : Nat := c.index + 1

/-- Positive for a completion number, negative for a connection on its own. -/
def completionId (c : Connection) : Int :=
  match c.completion with
  | some n => n.val
  | none => -(c.number : Int)

def isOpen (c : Connection) : Bool := decide (c.state = .open)

end Connection

/-- The completions of a list of connections, in the order of their first connections, each with
the indices of its connections. -/
def completionsOf (cs : List Connection) : List (Int × List Nat) :=
  (cs.map Connection.completionId).eraseDups.map fun id =>
    (id, (cs.filter fun c => c.completionId = id).map Connection.index)

end WellControl
