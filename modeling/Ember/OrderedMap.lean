/-!
# Maps that keep the order of their keys

A map whose keys stand in the order in which they were first put in. Putting a
value at a key that is there keeps the key's place.
-/

namespace Ember

/-- A map from keys to values; `entries` has every key once. -/
structure OrderedMap (κ α : Type) where
  entries : List (κ × α) := []
deriving DecidableEq, Repr, Inhabited

namespace OrderedMap

variable {κ α : Type}

/-- The map without keys. -/
def empty : OrderedMap κ α := {}

/-- The keys in order. -/
def keys (m : OrderedMap κ α) : List κ :=
  m.entries.map Prod.fst

variable [DecidableEq κ]

/-- The value at a key. -/
def get? (m : OrderedMap κ α) (key : κ) : Option α :=
  (m.entries.find? fun entry => entry.1 = key).map Prod.snd

/-- The entries with the value at one key replaced, or with a new last entry. -/
def putEntry (key : κ) (value : α) : List (κ × α) → List (κ × α)
  | [] => [(key, value)]
  | (k, v) :: rest => if k = key then (k, value) :: rest else (k, v) :: putEntry key value rest

/-- The map with a value put at a key. -/
def put (m : OrderedMap κ α) (key : κ) (value : α) : OrderedMap κ α :=
  { entries := putEntry key value m.entries }

/-- The map of some entries; the last of those with one key counts, in the place
of the first. -/
def ofList (entries : List (κ × α)) : OrderedMap κ α :=
  entries.foldl (fun m entry => m.put entry.1 entry.2) empty

end OrderedMap

end Ember
