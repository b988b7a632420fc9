import PowChain.Account.KeyPair
import PowChain.Codec.Canonical

/-!
# Transactions

A transaction moves `value` from its sender to its recipient and pays
`fee * feePrice` to the miner of its block; together these are its cost to
the sender.  Its `nonce` counts the sender's transactions, from one.  Its
identity is the digest of its canonical preimage, which leaves the signature
out, so the signature can cover the identity.

A block's reward is a transaction too: sent by the zero address, with the
block number as nonce, no fee and the payload `REWARD`.  Any transaction
whose payload is `REWARD` counts as a reward.
-/

namespace PowChain

/-- A transfer between two accounts. -/
structure Transaction where
  sender : Address
  recipient : Address
  nonce : UInt64
  value : UInt64
  fee : UInt64
  feePrice : UInt64
  data : ByteArray
  /-- Creation time, in milliseconds since the Unix epoch. -/
  time : Int64

namespace Transaction

/-- The largest value of a 64-bit word. -/
def wordMax : Nat := Nat.pow 2 64 - 1

/-- The payload that marks a reward. -/
def rewardData : ByteArray := "REWARD".toUTF8

/-- The reward paid to `miner` for block `number`. -/
def reward (miner : Address) (value number : UInt64) (time : Int64) : Transaction :=
  ⟨Address.zero, miner, number, value, 0, 0, rewardData, time⟩

/-- Whether the payload marks a reward. -/
def isReward (tx : Transaction) : Bool := tx.data == rewardData

/-- The fields of the canonical preimage, after the domain tag `tx`. -/
def canonicalFields (tx : Transaction) : List Canonical.Field :=
  [.fixed tx.sender.hash, .fixed tx.recipient.hash, .u64 tx.nonce, .u64 tx.value, .u64 tx.fee,
    .u64 tx.feePrice, .bytes tx.data, .i64 tx.time.toInt]

/-- The canonical preimage. -/
def canonical (tx : Transaction) : ByteArray :=
  Canonical.tagged "tx".toUTF8 tx.canonicalFields

/-- The identity of a transaction. -/
def hash (tx : Transaction) : Digest := sha256 tx.canonical

/-- What the miner earns: `fee * feePrice`, unless the product leaves 64 bits. -/
def netherUsed (tx : Transaction) : Result UInt64 :=
  let p := tx.fee.toNat * tx.feePrice.toNat
  if p > wordMax then .error (.invalidTransaction "fee * fee_price overflows")
  else .ok p.toUInt64

/-- The debit of the sender: value plus what the miner earns. -/
def cost (tx : Transaction) : Result UInt64 := do
  let used ← tx.netherUsed
  let c := tx.value.toNat + used.toNat
  if c > wordMax then .error (.invalidTransaction "transaction cost overflows")
  else .ok c.toUInt64

end Transaction

/-- A transaction and the 65-byte signature of its identity (empty for a
reward). -/
structure SignedTx where
  tx : Transaction
  signature : ByteArray

namespace SignedTx

/-- Signs a transaction: the signature covers its identity. -/
def sign (tx : Transaction) (k : KeyPair) : SignedTx := ⟨tx, k.signDigest tx.hash⟩

/-- The unsigned reward of a block. -/
def reward (miner : Address) (value number : UInt64) (time : Int64) : SignedTx :=
  ⟨Transaction.reward miner value number time, ByteArray.empty⟩

/-- The identity of the transaction. -/
def hash (s : SignedTx) : Digest := s.tx.hash

def isReward (s : SignedTx) : Bool := s.tx.isReward

/-- Whether the signature was made by the sender's key.  A signature from
which no key can be recovered is an error, not a `false`. -/
def isAuthentic (s : SignedTx) : Result Bool := do
  let signer ← recoverAddress s.hash s.signature
  pure (signer == s.tx.sender)

/-- Like `isAuthentic`, with a mismatch as `forgedTransaction`. -/
def verifyAuthentic (s : SignedTx) : Result Unit := do
  if ← s.isAuthentic then pure () else throw .forgedTransaction

end SignedTx
end PowChain
