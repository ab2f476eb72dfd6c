/-!
# Catalogs

A catalog holds one value for each of its keys and lists them in the order in which the keys
first came.  Replacing a value keeps the key's place; a key that was erased and comes again
goes to the end.
-/

set_option autoImplicit false

namespace WellControl

structure Catalog (κ ν : Type) where
  entries : List (κ × ν)
  distinct : (entries.map Prod.fst).Nodup

namespace Catalog
variable {κ ν : Type}

def empty : Catalog κ ν := ⟨[], List.nodup_nil⟩

instance : Inhabited (Catalog κ ν) := ⟨empty⟩

def keys (c : Catalog κ ν) : List κ := c.entries.map Prod.fst

def values (c : Catalog κ ν) : List ν := c.entries.map Prod.snd

def size (c : Catalog κ ν) : Nat := c.entries.length

/-- Change every value, each with its key in view. -/
def mapValues (f : κ → ν → ν) (c : Catalog κ ν) : Catalog κ ν where
  entries := c.entries.map fun e => (e.1, f e.1 e.2)
  distinct := by
    have same : (c.entries.map fun e => (e.1, f e.1 e.2)).map Prod.fst =
        c.entries.map Prod.fst := by simp [List.map_map, Function.comp_def]
    rw [same]; exact c.distinct

/-- Keep the entries whose key passes the test. -/
def keepKeys (p : κ → Bool) (c : Catalog κ ν) : Catalog κ ν where
  entries := c.entries.filter fun e => p e.1
  distinct := c.distinct.sublist (List.filter_sublist.map Prod.fst)

section Lookup
variable [DecidableEq κ]

def get? (c : Catalog κ ν) (k : κ) : Option ν :=
  (c.entries.find? fun e => e.1 = k).map Prod.snd

def has (c : Catalog κ ν) (k : κ) : Bool := decide (k ∈ c.keys)

/-- Add a key that is not listed yet, at the end. -/
def append (c : Catalog κ ν) (k : κ) (v : ν) (fresh : k ∉ c.keys) : Catalog κ ν where
  entries := c.entries ++ [(k, v)]
  distinct := by
    rw [List.map_append, List.nodup_append]
    refine ⟨c.distinct, by simp, ?_⟩
    intro a listed b last
    have : b = k := by simpa using last
    subst this
    exact fun same => fresh (same ▸ listed)

/-- Add a key unless it is listed.  The flag says whether it was added. -/
def insertNew (c : Catalog κ ν) (k : κ) (v : ν) : Bool × Catalog κ ν :=
  if listed : k ∈ c.keys then (false, c) else (true, c.append k v listed)

/-- Give a key a value, in its old place if it has one. -/
def put (c : Catalog κ ν) (k : κ) (v : ν) : Catalog κ ν :=
  if listed : k ∈ c.keys then c.mapValues fun k' old => if k' = k then v else old
  else c.append k v listed

def adjust (c : Catalog κ ν) (k : κ) (f : ν → ν) : Catalog κ ν :=
  c.mapValues fun k' old => if k' = k then f old else old

def erase (c : Catalog κ ν) (k : κ) : Catalog κ ν := c.keepKeys fun k' => decide (k' ≠ k)

/-- Put the entries of a list one after the other. -/
def ofList (entries : List (κ × ν)) : Catalog κ ν :=
  entries.foldl (fun c e => c.put e.1 e.2) empty

end Lookup
end Catalog
end WellControl
