import PowChain.Block.Basic

/-!
# Accounts, receipts and the state root

An account holds a balance and a nonce.  Applying a transaction yields a
receipt: the account whose balance it records (the sender, or the miner for a
reward), that balance afterwards, the fees paid, and where the transaction
sits (block hash, number, index).  A receipt's body digest covers its position
in the block but not the block hash or number, since the block hash depends
on the receipt root.

The state root of a set of accounts is the digest, under the domain tag
`state`, of their number and then each address, balance and nonce, in address
order.
-/

namespace PowChain

/-- The balance and transaction counter of one address. -/
structure Account where
  balance : UInt64 := 0
  nonce : UInt64 := 0
  deriving DecidableEq, Repr, Inhabited

namespace Account

def toWire (a : Account) : ByteArray := Wire.u64 a.balance ++ Wire.u64 a.nonce

def readWire : Wire.Reader Account := do
  let balance ← Wire.readU64
  let nonce ← Wire.readU64
  pure ⟨balance, nonce⟩

end Account

/-- The outcome of one applied transaction. -/
structure Receipt where
  address : Address
  postBalance : UInt64
  txHash : Digest
  blockHash : Digest
  blockNumber : UInt64
  txIndex : UInt32
  netherUsed : UInt64

namespace Receipt

/-- A receipt not yet placed in a block. -/
def unplaced (address : Address) (postBalance : UInt64) (tx : SignedTx) (used : UInt64) : Receipt :=
  ⟨address, postBalance, tx.hash, Digest.zero, 0, 0, used⟩

/-- The fields of the canonical preimage, after the domain tag `receipt`:
all but the block hash and number. -/
def canonicalFields (r : Receipt) : List Canonical.Field :=
  [.fixed r.address.hash, .u64 r.postBalance, .fixed r.txHash.bytes, .u32 r.txIndex,
    .u64 r.netherUsed]

/-- The canonical preimage. -/
def canonical (r : Receipt) : ByteArray := Canonical.tagged "receipt".toUTF8 r.canonicalFields

/-- The digest that enters the receipt root. -/
def bodyHash (r : Receipt) : Digest := sha256 r.canonical

def toWire (r : Receipt) : ByteArray :=
  r.address.toWire ++ Wire.u64 r.postBalance ++ r.txHash.bytes ++ r.blockHash.bytes ++
    Wire.u64 r.blockNumber ++ Wire.u32 r.txIndex ++ Wire.u64 r.netherUsed

def readWire : Wire.Reader Receipt := do
  let address ← Address.readWire
  let postBalance ← Wire.readU64
  let txHash ← Digest.readWire
  let blockHash ← Digest.readWire
  let blockNumber ← Wire.readU64
  let txIndex ← Wire.readU32
  let netherUsed ← Wire.readU64
  pure ⟨address, postBalance, txHash, blockHash, blockNumber, txIndex, netherUsed⟩

end Receipt

/-- The accounts sorted by address, that is by the twenty hash bytes, a later
entry for an address replacing an earlier one. -/
def sortAccounts (l : List (Address × Account)) : List (Address × Account) :=
  let dedup := l.foldl (fun acc p => (acc.filter (·.1 != p.1)) ++ [p]) []
  Bytes.sortByKey (·.1.hash) dedup

/-- The canonical preimage of accounts given in address order: their number,
then each address, balance and nonce. -/
def statePreimage (accounts : List (Address × Account)) : ByteArray :=
  Canonical.tagged "state".toUTF8
    (.u64 accounts.length.toUInt64 ::
      accounts.flatMap fun (a, acct) => [.fixed a.hash, .u64 acct.balance, .u64 acct.nonce])

/-- The state root of accounts given in address order. -/
def stateRootSorted (accounts : List (Address × Account)) : Digest := sha256 (statePreimage accounts)

/-- The state root of some accounts. -/
def stateRoot (accounts : List (Address × Account)) : Digest :=
  stateRootSorted (sortAccounts accounts)

end PowChain
