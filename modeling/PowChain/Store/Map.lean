import PowChain.Bytes.Basic

/-!
# Ordered maps of byte strings

The store in memory is one ordered map from byte keys to byte values.  Keys
are compared bytewise, so a prefix scan returns every entry whose key starts
with the prefix, in ascending key order.  A batch is the writes a
transaction commits: for each key a value, or a delete.
-/

namespace PowChain

/-- Entries sorted by key, each key once. -/
structure KvMap where
  entries : List (ByteArray × ByteArray) := []

namespace KvMap

/-- The value stored under `k`. -/
def get? (m : KvMap) (k : ByteArray) : Option ByteArray :=
  (m.entries.find? (·.1 == k)).map (·.2)

/-- Inserts or replaces the value under `k`, keeping keys sorted. -/
def insertList (k v : ByteArray) : List (ByteArray × ByteArray) → List (ByteArray × ByteArray)
  | [] => [(k, v)]
  | (k', v') :: rest =>
    match Bytes.compare k k' with
    | .lt => (k, v) :: (k', v') :: rest
    | .eq => (k, v) :: rest
    | .gt => (k', v') :: insertList k v rest

def insert (m : KvMap) (k v : ByteArray) : KvMap := ⟨insertList k v m.entries⟩

def erase (m : KvMap) (k : ByteArray) : KvMap := ⟨m.entries.filter (·.1 != k)⟩

/-- Entries whose key starts with `p`, in key order. -/
def scan (m : KvMap) (p : ByteArray) : List (ByteArray × ByteArray) :=
  m.entries.filter fun e => Bytes.startsWith e.1 p

def size (m : KvMap) : Nat := m.entries.length

/-- The map of a list of entries; of two entries with one key the later
counts. -/
def ofList (es : List (ByteArray × ByteArray)) : KvMap :=
  es.foldl (fun m (k, v) => m.insert k v) {}

end KvMap

/-- Pending writes: a value, or a delete, for each key. -/
abbrev Batch := List (ByteArray × Option ByteArray)

/-- The writes of a batch in key order, the order they reach the medium;
writes of one key keep their order. -/
def Batch.ordered (b : Batch) : Batch := Bytes.sortByKey (·.1) b

end PowChain
