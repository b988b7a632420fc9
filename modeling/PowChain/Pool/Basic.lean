import PowChain.Ledger.Engine
import PowChain.Tx.Validation

/-!
# The pending pool

Transactions wait in the pool, in admission order, until a block includes
them.  Each one is previewed on an overlay of account records: the overlay
starts from the canonical accounts and absorbs every pending transfer in
order, so a new transaction is checked against the state the pending ones
leave behind.  Canonical balances only move when a block is appended.

Admitting a valid transaction records it in the store under `tx/` and
answers a preview receipt; admitting one already pending answers its earlier
preview.  Reconciling with a block drops the block's transactions, rebuilds
the overlay on the new canonical state and evicts the pending transactions
that no longer apply; an evicted transaction's record is deleted unless it
has a receipt.
-/

namespace PowChain

/-- A pending transaction with the receipt it was admitted with. -/
structure PendingEntry where
  tx : SignedTx
  preview : Receipt

/-- Counts from one reconciliation. -/
structure ReconcileReport where
  /-- Block transactions that were pending. -/
  removed : Nat
  /-- Block transactions that were not pending. -/
  missing : Nat
  /-- Pending transactions that no longer apply. -/
  evicted : Nat
  deriving DecidableEq, Repr

/-- The pending transactions and their overlay. -/
structure Pool where
  /-- Hashes in admission order. -/
  order : List Digest := []
  entries : List (Digest × PendingEntry) := []
  shadows : Overlay := {}

namespace Pool

/-- The most transactions held at once. -/
def maxPending : Nat := 10000

def find? (p : Pool) (h : Digest) : Option PendingEntry := (p.entries.find? (·.1 == h)).map (·.2)

def contains (p : Pool) (h : Digest) : Bool := (p.find? h).isSome

def get? (p : Pool) (h : Digest) : Option SignedTx := (p.find? h).map (·.tx)

def size (p : Pool) : Nat := p.order.length

def isEmpty (p : Pool) : Bool := p.order.isEmpty

/-- The account of `a` once every pending transaction is included. -/
def pendingAccount (p : Pool) (s : Store) (a : Address) : Result Account :=
  p.shadows.lookup s.account a

/-- Up to `limit` pending transactions in admission order; nothing is removed. -/
def drain (p : Pool) (limit : Nat) : List SignedTx :=
  (p.order.take limit).filterMap p.get?

/-- Every pending transaction in admission order. -/
def transactions (p : Pool) : List SignedTx := p.order.filterMap p.get?

/-- Validates `tx`, previews it on the overlay and adds it to the pool, with
its record in the store. -/
def accept (p : Pool) (s : Store) (tx : SignedTx) : Result (Receipt × Pool × Store) := do
  tx.validate
  let h := tx.hash
  if let some e := p.find? h then return (e.preview, p, s)
  if p.order.length ≥ maxPending then
    throw (.invalidTransaction s!"Pending pool is full ({maxPending} transactions)")
  let (sender, recipient) ← tx.tx.transfer (p.shadows.lookup s.account)
  let ((), s) ← s.update (TxnM.set (Keys.transaction h.bytes) tx.toWire)
  let preview : Receipt :=
    ⟨tx.tx.sender, sender.balance, h, Digest.zero, 0, p.order.length.toUInt32, ← tx.tx.netherUsed⟩
  let shadows := (p.shadows.put tx.tx.sender sender).put tx.tx.recipient recipient
  pure (preview, { order := p.order ++ [h], entries := p.entries ++ [(h, ⟨tx, preview⟩)], shadows }, s)

/-- How far a replay of pending transactions got: the hashes kept and
evicted so far (latest first) and the overlay they built. -/
structure Replay where
  kept : List Digest := []
  evicted : List Digest := []
  shadows : Overlay := {}

/-- Replays pending transactions in order on the overlay over `base`, keeping
those that apply and evicting the others.  A panic stops the replay; it is
answered together with how far the replay got. -/
def replay (base : AccountLookup) (entries : List (Digest × PendingEntry)) :
    List Digest → Replay → Except (LedgerError × Replay) Replay
  | [], r => .ok r
  | h :: rest, r =>
    match (entries.find? (·.1 == h)).map (·.2) with
    | none => replay base entries rest r
    | some e =>
      match e.tx.tx.transfer (r.shadows.lookup base) with
      | .ok (sender, recipient) =>
        replay base entries rest { r with
          kept := h :: r.kept
          shadows := (r.shadows.put e.tx.tx.sender sender).put e.tx.tx.recipient recipient }
      | .error err =>
        if err.isPanic then .error (err, r)
        else replay base entries rest { r with evicted := h :: r.evicted }

/-- Deletes the record of each hash that has no receipt, in one transaction;
a failure leaves the store as it was. -/
def forget (s : Store) (hashes : List Digest) : Store :=
  if hashes.isEmpty then s
  else
    let drop : TxnM Unit := hashes.forM fun h => do
      if (← TxnM.get? (Keys.receipt h.bytes)).isNone then TxnM.delete (Keys.transaction h.bytes)
    match s.update drop with
    | .ok ((), s) => s
    | .error _ => s

/-- Drops the transactions of `b` from the pool and rebuilds the overlay on
the canonical accounts of `s`, evicting what no longer applies.  A panic while
replaying ends the pass at once: the pool is left with no order, the entries
not yet evicted, and the overlay built so far, and nothing is forgotten. -/
def reconcile (p : Pool) (s : Store) (b : Block) : Result ReconcileReport × Pool × Store :=
  let included := (b.transactions.map SignedTx.hash).eraseDups
  let removed := (included.filter p.contains).length
  let entries := p.entries.filter fun e => !included.contains e.1
  let order := p.order.filter fun h => !included.contains h
  match replay s.account entries order {} with
  | .ok r =>
    let entries := entries.filter fun e => !r.evicted.contains e.1
    (.ok ⟨removed, included.length - removed, r.evicted.length⟩,
      { order := r.kept.reverse, entries, shadows := r.shadows }, forget s r.evicted.reverse)
  | .error (err, r) =>
    let entries := entries.filter fun e => !r.evicted.contains e.1
    (.error err, { order := [], entries, shadows := r.shadows }, s)

end Pool
end PowChain
