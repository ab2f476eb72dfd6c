import WellControl.Fault

/-!
# Rectangular arrays

A grid holds its entries in one list, the last axis running fastest, beside the extent of each
axis.  A well's rates are a `line`, its perforation rates have one row per connection.
-/

set_option autoImplicit false

namespace WellControl

namespace Grid

/-- How many entries an array of this shape has. -/
def volume : List Nat → Nat
  | [] => 1
  | n :: shape => n * volume shape

end Grid

structure Grid (α : Type) where
  shape : List Nat
  entries : List α
  full : entries.length = Grid.volume shape

/-- Array data as it is written: numbers and lists of such data, not yet known to be
rectangular. -/
inductive Nested (α : Type) where
  | value (x : α)
  | list (items : List (Nested α))

instance {α : Type} : Inhabited (Nested α) := ⟨.list []⟩

namespace Grid
variable {α : Type}

def ofList (xs : List α) : Grid α := ⟨[xs.length], xs, by simp [volume]⟩

/-- No rows, of no columns. -/
def noRows : Grid α := ⟨[0, 0], [], rfl⟩

def point (x : α) : Grid α := ⟨[], [x], rfl⟩

def fill (x : α) (shape : List Nat) : Grid α :=
  ⟨shape, List.replicate (volume shape) x, List.length_replicate⟩

def map {β : Type} (f : α → β) (g : Grid α) : Grid β :=
  ⟨g.shape, g.entries.map f, by rw [List.length_map, g.full]⟩

/-- The entries of an array that has a single one at each place of its first axis. -/
def line : Grid α → List α
  | ⟨[], _, _⟩ => []
  | ⟨_ :: rest, entries, _⟩ => if volume rest = 1 then entries else []

/-- Extent of the axis along which coefficients apply to an array of a shape: the only axis, or the
last but one of several.  A bare number is one entry. -/
def weightedExtent : List Nat → Nat
  | [] => 1
  | [n] => n
  | [n, _] => n
  | _ :: shape => weightedExtent shape

def extent (g : Grid α) : Nat := g.shape.headD 0

/-- The part of an array at one place of its first axis. -/
def part? : Grid α → Nat → Option (Grid α)
  | ⟨[], _, _⟩, _ => none
  | ⟨n :: rest, entries, full⟩, i =>
    if inside : i < n then
      some
        { shape := rest
          entries := (entries.drop (i * volume rest)).take (volume rest)
          full := by
            have room : volume rest ≤ n * volume rest - i * volume rest := by
              rw [← Nat.sub_mul]
              exact Nat.le_mul_of_pos_left _ (Nat.sub_pos_of_lt inside)
            rw [List.length_take, List.length_drop, full, volume, Nat.min_eq_left room] }
    else none

@[simp] theorem line_ofList (xs : List α) : (ofList xs).line = xs := rfl

@[simp] theorem shape_ofList (xs : List α) : (ofList xs).shape = [xs.length] := rfl

@[simp] theorem shape_map {β : Type} (f : α → β) (g : Grid α) : (g.map f).shape = g.shape := rfl

theorem line_map {β : Type} (f : α → β) (g : Grid α) : (g.map f).line = g.line.map f := by
  obtain ⟨shape, entries, full⟩ := g
  cases shape with
  | nil => rfl
  | cons n rest => by_cases single : volume rest = 1 <;> simp [line, map, single]

theorem length_line {g : Grid α} {n : Nat} (h : g.shape = [n]) : g.line.length = n := by
  obtain ⟨shape, entries, full⟩ := g
  subst h
  simpa [line, volume] using full

section Rows

theorem volume_concat (shape : List Nat) (n : Nat) : volume (shape ++ [n]) = volume shape * n := by
  induction shape with
  | nil => simp [volume]
  | cons m rest ih => simp only [List.cons_append, volume, ih, Nat.mul_assoc]

/-- An array that has the same row wherever its last axis runs. -/
def repeatRow (outer : List Nat) (row : List α) : Grid α where
  shape := outer ++ [row.length]
  entries := (List.replicate (volume outer) row).flatten
  full := by rw [volume_concat, List.length_flatten, List.map_replicate, List.sum_replicate_nat]

/-- An array of a shape that is filled with a row.  A row of one entry fills every array but a bare
number; any other row has to run along the last axis. -/
def ofRow (shape : List Nat) (row : List α) : Outcome α (Grid α) :=
  if shape = [row.length] then .ok (ofList row)
  else
    match shape.getLast?, row with
    | none, _ => .error .missingRate
    | some _, [x] => .ok (fill x shape)
    | some n, row =>
      if row.length = n then .ok (repeatRow shape.dropLast row) else .error .misaligned

end Rows

section Stack

theorem length_flatMap_entries (shape : List Nat) (gs : List (Grid α))
    (alike : ∀ g ∈ gs, g.shape = shape) :
    (gs.flatMap Grid.entries).length = gs.length * volume shape := by
  induction gs with
  | nil => simp
  | cons g rest ih =>
    rw [List.flatMap_cons, List.length_append, ih fun h mem => alike h (List.mem_cons_of_mem _ mem),
      g.full, alike g List.mem_cons_self, List.length_cons, Nat.succ_mul, Nat.add_comm]

/-- Lay arrays of one shape along a new first axis. -/
def stack? : List (Grid α) → Option (Grid α)
  | [] => some ⟨[0], [], rfl⟩
  | g :: rest =>
    if alike : ∀ h ∈ rest, h.shape = g.shape then
      some
        { shape := (rest.length + 1) :: g.shape
          entries := (g :: rest).flatMap Grid.entries
          full := length_flatMap_entries g.shape (g :: rest) fun h mem =>
            (List.mem_cons.1 mem).elim (fun same => by rw [same]) (alike h) }
    else none

end Stack

mutual

/-- The rectangular array that the data spell out, if they do. -/
def ofNested? : Nested α → Option (Grid α)
  | .value x => some (point x)
  | .list items =>
    match ofNestedList? items with
    | some gs => stack? gs
    | none => none

def ofNestedList? : List (Nested α) → Option (List (Grid α))
  | [] => some []
  | item :: rest =>
    match ofNested? item, ofNestedList? rest with
    | some g, some gs => some (g :: gs)
    | _, _ => none

end

/-- An array has no more axes than these. -/
def mostAxes : Nat := 64

def read (data : Nested α) : Outcome α (Grid α) :=
  match ofNested? data with
  | some g => if g.shape.length ≤ mostAxes then .ok g else .error .ragged
  | none => .error .ragged

/-- The entries of an array of this shape, as nested lists. -/
def nest : List Nat → List α → Nested α
  | [], x :: _ => .value x
  | [], [] => .list []
  | n :: shape, xs =>
    .list ((List.range n).map fun i =>
      nest shape ((xs.drop (i * volume shape)).take (volume shape)))

def toNested (g : Grid α) : Nested α := nest g.shape g.entries

end Grid
end WellControl
