/-!
# A least-recently-used cache

Entries are kept most recent first, at most `capacity` of them; a capacity of
zero acts as one.  Looking a key up with `get` counts a hit or a miss and
makes a found entry the most recent; `peek` only reads.  Putting a key that is
present replaces its value and makes it the most recent; putting a new key
into a full cache drops the least recent entry.
-/

namespace PowChain

/-- A least-recently-used cache with hit and miss counts. -/
structure Lru (κ α : Type) where
  capacity : Nat
  /-- Entries, most recent first. -/
  entries : List (κ × α) := []
  hits : Nat := 0
  misses : Nat := 0

namespace Lru

variable {κ α : Type} [BEq κ]

/-- An empty cache; a capacity of zero acts as one. -/
def empty (capacity : Nat) : Lru κ α := { capacity := max capacity 1 }

/-- The value under `k`, without touching recency or counts. -/
def peek (c : Lru κ α) (k : κ) : Option α := (c.entries.find? (·.1 == k)).map (·.2)

/-- The value under `k`; a found entry becomes the most recent. -/
def get (c : Lru κ α) (k : κ) : Option α × Lru κ α :=
  match c.peek k with
  | some v => (some v, { c with entries := (k, v) :: c.entries.filter (·.1 != k), hits := c.hits + 1 })
  | none => (none, { c with misses := c.misses + 1 })

/-- Puts `v` under `k` as the most recent entry, dropping the least recent
one when a new key would overflow the capacity. -/
def put (c : Lru κ α) (k : κ) (v : α) : Lru κ α :=
  let rest := c.entries.filter (·.1 != k)
  { c with entries := ((k, v) :: rest).take c.capacity }

/-- Takes the entry of `k` out. -/
def remove (c : Lru κ α) (k : κ) : Option α × Lru κ α :=
  (c.peek k, { c with entries := c.entries.filter (·.1 != k) })

/-- Drops every entry; the counts stay. -/
def clear (c : Lru κ α) : Lru κ α := { c with entries := [] }

def size (c : Lru κ α) : Nat := c.entries.length

def isEmpty (c : Lru κ α) : Bool := c.entries.isEmpty

end Lru
end PowChain
