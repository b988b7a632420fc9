import PowChain.Codec.Wire
import PowChain.Store.File

/-!
# The key-value store

The ledger keeps everything in one ordered map from byte keys to byte values,
in memory or in a database file.  Keys are compared bytewise, so a prefix
scan returns every entry whose key starts with the prefix, in ascending key
order.

Writes are grouped in transactions.  A transaction reads its own writes: a
pending write or delete of a key hides the stored entry.  `update` commits a
transaction's writes together, and nothing if it fails; `dryRun` never
commits.

A store in a file shows what its database holds.  A lookup gives the value
of the first row with the key, and fails when that value is not a blob; a
scan gives every row from the prefix on while the keys start with it, and
fails at the first key or value that is not a blob; a commit runs one
statement per key, in key order.  Every failure of a statement is reported
with what the store was doing: reading a key, preparing the scan, reading
its rows, or writing a key.
-/

namespace PowChain

/-- Where a store keeps its entries. -/
inductive Medium where
  | memory (m : KvMap)
  | file (h : StoreFile.Handle)

/-- The ordered map behind a ledger. -/
structure Store where
  medium : Medium := .memory {}

namespace Store

/-- A bound on the number of rows the store holds. -/
def size (s : Store) : Nat :=
  match s.medium with
  | .memory m => m.size
  | .file h => h.bytes.size

/-- The value stored under `k`.  A value that is not a byte string cannot be
read as one. -/
def get? (s : Store) (k : ByteArray) : Result (Option ByteArray) :=
  match s.medium with
  | .memory m => .ok (m.get? k)
  | .file h =>
    match h.lookup k with
    | .error m => .error (.database s!"Failed to read key: {m}")
    | .ok none => .ok none
    | .ok (some (.blob b _, _)) => .ok (some b)
    | .ok (some (v, col)) =>
      .error (.database s!"Failed to read key: Invalid column type {v.kind} at index: 0, name: {col}")

def contains (s : Store) (k : ByteArray) : Result Bool := do pure (← s.get? k).isSome

/-- The rows of a scan while their keys start with `p`; the first key or
value that is not a byte string fails it. -/
def takePrefixed (p : ByteArray) (keyCol valueCol : String) :
    List (Sql.Value × Sql.Value) → Result (List (ByteArray × ByteArray))
  | [] => .ok []
  | (k, v) :: rest =>
    match k with
    | .blob kb _ =>
      if !Bytes.startsWith kb p then .ok []
      else
        match v with
        | .blob vb _ => do pure ((kb, vb) :: (← takePrefixed p keyCol valueCol rest))
        | _ => .error (.database s!"Invalid column type {v.kind} at index: 1, name: {valueCol}")
    | _ => .error (.database s!"Invalid column type {k.kind} at index: 0, name: {keyCol}")

/-- Entries whose key starts with `p`, in key order. -/
def scan (s : Store) (p : ByteArray) : Result (List (ByteArray × ByteArray)) :=
  match s.medium with
  | .memory m => .ok (m.scan p)
  | .file h =>
    match h.scan p with
    | .error (.prepare m) => .error (.database s!"Failed to prepare query: {m}")
    | .error (.read m) => .error (.database s!"Failed to read row: {m}")
    | .ok (rows, keyCol, valueCol) => takePrefixed p keyCol valueCol rows

/-- The writes of a batch in key order, the order they reach the medium. -/
def ordered (b : Batch) : Batch := Batch.ordered b

/-- Commits a batch of writes together; a failed write leaves the store as
it was. -/
def commit (s : Store) (b : Batch) : Result Store :=
  match s.medium with
  | .memory m =>
    let m := (ordered b).foldl (fun m (k, op) => match op with
      | some v => m.insert k v
      | none => m.erase k) m
    .ok { medium := .memory m }
  | .file h =>
    match h.apply b with
    | .ok h => .ok { medium := .file h }
    | .error (.write m) => .error (.database s!"Failed to write key: {m}")
    | .error (.commit m) => .error (.database s!"Failed to commit transaction: {m}")

end Store

/-- A transaction: the store it reads from and its pending writes. -/
structure Txn where
  base : Store
  batch : Batch := []

namespace Txn

def get? (t : Txn) (k : ByteArray) : Result (Option ByteArray) :=
  match t.batch.find? (·.1 == k) with
  | some (_, op) => .ok op
  | none => t.base.get? k

def set (t : Txn) (k v : ByteArray) : Txn :=
  { t with batch := (k, some v) :: t.batch.filter (·.1 != k) }

def delete (t : Txn) (k : ByteArray) : Txn :=
  { t with batch := (k, none) :: t.batch.filter (·.1 != k) }

/-- Entries under a prefix, pending writes included. -/
def scan (t : Txn) (p : ByteArray) : Result (List (ByteArray × ByteArray)) := do
  let stored := KvMap.ofList (← t.base.scan p)
  let pending := t.batch.filter fun e => Bytes.startsWith e.1 p
  let merged := pending.foldr (fun (k, op) m => match op with
    | some v => m.insert k v
    | none => m.erase k) stored
  pure merged.entries

end Txn

/-- A computation inside a store transaction. -/
abbrev TxnM (α : Type) := StateT Txn (Except LedgerError) α

namespace TxnM

def get? (k : ByteArray) : TxnM (Option ByteArray) := do
  let t ← MonadState.get
  let v ← t.get? k
  pure v

def set (k v : ByteArray) : TxnM Unit := modify (·.set k v)

def delete (k : ByteArray) : TxnM Unit := modify (·.delete k)

def scan (p : ByteArray) : TxnM (List (ByteArray × ByteArray)) := do
  let t ← MonadState.get
  let entries ← t.scan p
  pure entries

/-- The value under `k` read with `r`; a fault is a serialization error. -/
def getDecoded {α : Type} (r : Wire.Reader α) (k : ByteArray) : TxnM (Option α) := do
  match ← get? k with
  | none => pure none
  | some b =>
    match Wire.decode r b with
    | .ok v => pure (some v)
    | .error f => throw (.serialization f.message)

end TxnM

namespace Store

/-- The value under `k` read with `r`; a fault is a serialization error. -/
def getDecoded {α : Type} (s : Store) (r : Wire.Reader α) (k : ByteArray) : Result (Option α) := do
  match ← s.get? k with
  | none => pure none
  | some b =>
    match Wire.decode r b with
    | .ok v => pure (some v)
    | .error f => throw (.serialization f.message)

/-- Runs `f` in a transaction and commits its writes if it succeeds; a
transaction that wrote nothing commits nothing. -/
def update {α : Type} (s : Store) (f : TxnM α) : Result (α × Store) := do
  let (a, t) ← f.run ⟨s, []⟩
  if t.batch.isEmpty then pure (a, s) else pure (a, ← s.commit t.batch)

/-- Runs `f` in a transaction whose writes are discarded. -/
def dryRun {α : Type} (s : Store) (f : TxnM α) : Result α := do
  let (a, _) ← f.run ⟨s, []⟩
  pure a

/-- Writes one entry in a transaction of its own. -/
def put (s : Store) (k v : ByteArray) : Result Store := s.commit [(k, some v)]

/-- Deletes one entry in a transaction of its own. -/
def erase (s : Store) (k : ByteArray) : Result Store := s.commit [(k, none)]

end Store

/-! ## Where each kind of record lives -/

namespace Keys

/-- The hash of the tip. -/
def tip : ByteArray := "lh".toUTF8
/-- The number of blocks, genesis included. -/
def chainLength : ByteArray := "cl".toUTF8
/-- The genesis document. -/
def genesis : ByteArray := "g".toUTF8

def balancesPrefix : ByteArray := "balances/".toUTF8
def txPrefix : ByteArray := "tx/".toUTF8
def receiptPrefix : ByteArray := "receipt/".toUTF8
def peersPrefix : ByteArray := "peers/".toUTF8

/-- Blocks are keyed by their raw hash. -/
def block (h : ByteArray) : ByteArray := h

def balance (addressText : String) : ByteArray := balancesPrefix ++ addressText.toUTF8
def transaction (h : ByteArray) : ByteArray := txPrefix ++ h
def receipt (h : ByteArray) : ByteArray := receiptPrefix ++ h
def peer (id : String) : ByteArray := peersPrefix ++ id.toUTF8

end Keys
end PowChain
