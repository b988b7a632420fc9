import PowChain.Ledger.Transfer
import PowChain.Store.Basic
import PowChain.Tx.Wire
import PowChain.Text.Utf8
import PowChain.Codec.Merkle

/-!
# Applying transactions to stored accounts

Account records live in the store under `balances/` and the address text, as
the wire form of balance and nonce; an address without a record holds an
empty account.  Applying a transaction inside a store transaction runs the
transfer rules on the records as that transaction sees them and writes the
accounts back.

A block is applied all or nothing: rewards are credited, standard
transactions must be authentic and are transferred, in order.  Each receipt is
stamped with the block's hash and number and its position, and written next
to the transaction itself under `tx/` and `receipt/`.  The result carries the
receipts, the nether used (which must fit in 64 bits), the state root over the
accounts the block touched, and the receipt root over the receipts' body
digests.
-/

namespace PowChain

/-- Decodes a stored record; a fault is a serialization error. -/
def decodeRecord {α : Type} (r : Wire.Reader α) (b : ByteArray) : Result α :=
  match Wire.decode r b with
  | .ok v => .ok v
  | .error f => .error (.serialization f.message)

namespace Txn

/-- The account of `a` as the transaction sees it. -/
def account (t : Txn) (a : Address) : Result Account := do
  match ← t.get? (Keys.balance a.encode) with
  | none => pure {}
  | some b => decodeRecord Account.readWire b

end Txn

namespace TxnM

/-- Overwrites the account record of `a`. -/
def putAccount (a : Address) (acct : Account) : TxnM Unit :=
  set (Keys.balance a.encode) acct.toWire

/-- The account of `a` as the transaction sees it. -/
def account (a : Address) : TxnM Account := do
  let t ← MonadState.get
  t.account a

end TxnM

/-- What applying a block produced, before it is committed. -/
structure Application where
  receipts : List Receipt
  netherUsed : UInt64
  stateRoot : Digest
  receiptRoot : Digest

namespace Ledger

/-- Applies one standard transaction; the receipt records the sender. -/
def applyStandard (s : SignedTx) : TxnM Receipt := do
  let t ← MonadState.get
  let (sender, recipient) ← s.tx.transfer t.account
  TxnM.putAccount s.tx.sender sender
  TxnM.putAccount s.tx.recipient recipient
  pure (Receipt.unplaced s.tx.sender sender.balance s (← s.tx.netherUsed))

/-- Credits one reward; the receipt records the recipient. -/
def applyReward (s : SignedTx) : TxnM Receipt := do
  let t ← MonadState.get
  let miner ← s.tx.credit t.account
  TxnM.putAccount s.tx.recipient miner
  pure (Receipt.unplaced s.tx.recipient miner.balance s 0)

/-- Applies `txs` of a block with header `h`, the first at position `index`.
Receipts come out in order, with the touched addresses and the nether used. -/
def applyFrom (h : Header) :
    Nat → List SignedTx → List Address → UInt64 → List Receipt →
      TxnM (List Receipt × List Address × UInt64)
  | _, [], touched, used, acc => pure (acc.reverse, touched, used)
  | index, s :: rest, touched, used, acc => do
    let (r, touched) ← if s.isReward then do
        pure (← applyReward s, s.tx.recipient :: touched)
      else do
        s.verifyAuthentic
        pure (← applyStandard s, s.tx.recipient :: s.tx.sender :: touched)
    if used.toNat + r.netherUsed.toNat ≥ Nat.pow 2 64 then
      throw (.invalidBlock "Block nether usage overflows")
    let r := { r with blockHash := h.hash, blockNumber := h.number, txIndex := index.toUInt32 }
    TxnM.set (Keys.transaction r.txHash.bytes) s.toWire
    TxnM.set (Keys.receipt r.txHash.bytes) r.toWire
    applyFrom h (index + 1) rest touched (used + r.netherUsed) (r :: acc)

/-- Applies every transaction of a block in order. -/
def applyBlockIn (b : Block) : TxnM Application := do
  let (receipts, touched, used) ← applyFrom b.header 0 b.transactions [] 0 []
  let post ← touched.mapM fun a => do pure (a, ← TxnM.account a)
  pure ⟨receipts, used, stateRoot post, Merkle.root (receipts.map Receipt.bodyHash)⟩

end Ledger

namespace Store

/-- The account of `a`; an address without a record holds an empty account. -/
def account (s : Store) (a : Address) : Result Account := ({ base := s } : Txn).account a

def balance (s : Store) (a : Address) : Result UInt64 := do pure (← s.account a).balance

/-- The receipt of the transaction with hash `h`. -/
def receipt (s : Store) (h : Digest) : Result Receipt := do
  match ← s.get? (Keys.receipt h.bytes) with
  | none => throw (.receiptNotFound h.toHex)
  | some b => decodeRecord Receipt.readWire b

/-- The transaction with hash `h`, confirmed or pending. -/
def transaction (s : Store) (h : Digest) : Result SignedTx := do
  match ← s.get? (Keys.transaction h.bytes) with
  | none => throw (.transactionNotFound h.toHex)
  | some b => decodeRecord SignedTx.readWire b

/-- Every account with a record, in key order, which is the order of the
address texts. -/
def accounts (s : Store) : Result (List (Address × Account)) := do
  (← s.scan Keys.balancesPrefix).mapM fun (k, v) => do
    let a ← Address.decode (Utf8.lossy (k.extract Keys.balancesPrefix.size k.size))
    pure (a, ← decodeRecord Account.readWire v)

/-- Applies one standard transaction and records its receipt. -/
def applyTransaction (s : Store) (tx : SignedTx) : Result (Receipt × Store) :=
  s.update do
    let r ← Ledger.applyStandard tx
    TxnM.set (Keys.receipt r.txHash.bytes) r.toWire
    pure r

/-- Credits one reward and records its receipt. -/
def applyReward (s : Store) (tx : SignedTx) : Result (Receipt × Store) :=
  s.update do
    let r ← Ledger.applyReward tx
    TxnM.set (Keys.receipt r.txHash.bytes) r.toWire
    pure r

/-- Applies a block and commits its effects. -/
def applyBlock (s : Store) (b : Block) : Result (Application × Store) :=
  s.update (Ledger.applyBlockIn b)

end Store
end PowChain
