import PowChain.Ledger.Account

/-!
# Transfers and rewards

A standard transaction moves `value` from its sender to its recipient and
burns `fee * fee_price` from the sender.  A transfer is computed from a way to
look accounts up and yields the two accounts it leaves behind; nothing is
written until it succeeds, so a failed transfer changes nothing wherever the
accounts live (a store transaction, or the pending pool's overlay).

The checks run in a fixed order: sender and recipient differ, the cost fits
in 64 bits, the sender's balance covers the cost, the nonce is one more than
the sender's, and the recipient's balance does not overflow.  Each party's
nonce moves: the sender's to the transaction's nonce, the recipient's up by
one.  A reward only credits its recipient.
-/

namespace PowChain

/-- A lookup of account records, which may fail when a record cannot be read. -/
abbrev AccountLookup := Address → Result Account

/-- `a + b` on 64-bit words, failing as an overflow when it wraps. -/
def addWord (a b : UInt64) : Result UInt64 :=
  if a.toNat + b.toNat < Nat.pow 2 64 then .ok (a + b) else .error (.arithmeticOverflow "add")

namespace Transaction

/-- The sender's and the recipient's accounts after a standard transfer. -/
def transfer (load : AccountLookup) (tx : Transaction) : Result (Account × Account) := do
  if tx.sender == tx.recipient then throw (.invalidTransaction "Cannot send to self")
  let cost ← tx.cost
  let sender ← load tx.sender
  if sender.balance < cost then
    throw (.insufficientBalance sender.balance.toNat cost.toNat)
  let expected ← addWord sender.nonce 1
  if tx.nonce != expected then throw (.invalidNonce expected.toNat tx.nonce.toNat)
  let recipient ← load tx.recipient
  if recipient.balance.toNat + tx.value.toNat ≥ Nat.pow 2 64 then
    throw (.invalidTransaction "Recipient balance overflows")
  let recipientNonce ← addWord recipient.nonce 1
  pure (⟨sender.balance - cost, tx.nonce⟩, ⟨recipient.balance + tx.value, recipientNonce⟩)

/-- The recipient's account after a reward is credited. -/
def credit (load : AccountLookup) (tx : Transaction) : Result Account := do
  if !tx.isReward then throw .invalidReward
  let miner ← load tx.recipient
  if miner.balance.toNat + tx.value.toNat ≥ Nat.pow 2 64 then
    throw (.invalidTransaction "Miner balance overflows")
  pure { miner with balance := miner.balance + tx.value }

end Transaction

/-- Account records that a computation reads and overwrites: a lookup with
some records replaced. -/
structure Overlay where
  /-- Replaced records, latest first. -/
  written : List (Address × Account) := []

namespace Overlay

/-- The replaced record of `a`, if any. -/
def find? (o : Overlay) (a : Address) : Option Account := (o.written.find? (·.1 == a)).map (·.2)

/-- Replaces the record of `a`. -/
def put (o : Overlay) (a : Address) (acct : Account) : Overlay :=
  ⟨(a, acct) :: o.written.filter (·.1 != a)⟩

/-- Reads through the overlay to `base`. -/
def lookup (o : Overlay) (base : AccountLookup) : AccountLookup := fun a =>
  match o.find? a with
  | some acct => .ok acct
  | none => base a

end Overlay
end PowChain
