import PowChain.Tx.Wire
import PowChain.Codec.Merkle

/-!
# Block headers

A header links a block to its parent and commits to its contents: the state
root after the block, the merkle roots of its transactions and receipts, the
fees its transactions paid, and the miner paid by its reward.  Its hash is
the digest of every other field, the proof-of-work nonce written last, so
that the preimage without the nonce (the seal prefix) is shared by every
nonce a miner tries.
-/

namespace PowChain

/-- The header of a block. -/
structure Header where
  parentHash : Digest
  /-- The recorded hash; `computeHash` recomputes it from the other fields. -/
  hash : Digest
  number : UInt64
  /-- Milliseconds since the Unix epoch. -/
  timestamp : Int64
  stateRoot : Digest
  txRoot : Digest
  receiptRoot : Digest
  netherUsed : UInt64
  coinbase : Address
  nonce : UInt64

namespace Header

/-- The header with every field zero. -/
def zero : Header :=
  ⟨Digest.zero, Digest.zero, 0, 0, Digest.zero, Digest.zero, Digest.zero, 0, Address.zero, 0⟩

instance : Inhabited Header := ⟨zero⟩

/-- The canonical fields of every part but the hash and the nonce. -/
def unsealedFields (h : Header) : List Canonical.Field :=
  [.fixed h.parentHash.bytes, .u64 h.number, .i64 h.timestamp.toInt, .fixed h.stateRoot.bytes,
    .fixed h.txRoot.bytes, .fixed h.receiptRoot.bytes, .u64 h.netherUsed, .fixed h.coinbase.hash]

/-- The preimage without the nonce. -/
def sealPrefix (h : Header) : ByteArray :=
  Canonical.tagged "header".toUTF8 h.unsealedFields

/-- The whole canonical preimage: the seal prefix, then the nonce. -/
def canonical (h : Header) : ByteArray := h.sealPrefix ++ Bytes.u64 h.nonce

/-- The hash the header should carry. -/
def computeHash (h : Header) : Digest := sha256 h.canonical

def toWire (h : Header) : ByteArray :=
  h.parentHash.bytes ++ h.hash.bytes ++ Wire.u64 h.number ++ Wire.i64 h.timestamp.toInt ++
    h.stateRoot.bytes ++ h.txRoot.bytes ++ h.receiptRoot.bytes ++ Wire.u64 h.netherUsed ++
    h.coinbase.toWire ++ Wire.u64 h.nonce

end Header

namespace Digest

/-- Thirty-two raw bytes on the wire. -/
def readWire : Wire.Reader Digest := do
  let b ← Wire.readFixed 32
  match Digest.ofBytes? b with
  | some d => pure d
  | none => throw .truncated

end Digest

namespace Header

def readWire : Wire.Reader Header := do
  let parentHash ← Digest.readWire
  let hash ← Digest.readWire
  let number ← Wire.readU64
  let timestamp ← Wire.readI64
  let stateRoot ← Digest.readWire
  let txRoot ← Digest.readWire
  let receiptRoot ← Digest.readWire
  let netherUsed ← Wire.readU64
  let coinbase ← Address.readWire
  let nonce ← Wire.readU64
  pure ⟨parentHash, hash, number, Int64.ofInt timestamp, stateRoot, txRoot, receiptRoot,
    netherUsed, coinbase, nonce⟩

end Header

/-- A header and its transactions, the reward among them. -/
structure Block where
  header : Header
  transactions : List SignedTx

namespace Block

instance : Inhabited Block := ⟨⟨default, []⟩⟩

/-- The recorded hash. -/
def hash (b : Block) : Digest := b.header.hash

def isGenesis (b : Block) : Bool := b.header.number == 0

/-- The merkle root of the transactions' identities. -/
def txRootOf (txs : List SignedTx) : Digest := Merkle.root (txs.map SignedTx.hash)

def toWire (b : Block) : ByteArray := b.header.toWire ++ Wire.seq SignedTx.toWire b.transactions

def readWire : Wire.Reader Block := do
  let header ← Header.readWire
  let txs ← Wire.readSeq SignedTx.readWire
  pure ⟨header, txs⟩

/-- The wire bytes of a block. -/
def toBytes (b : Block) : ByteArray := b.toWire

/-- A block from its wire bytes; a fault is a serialization error. -/
def ofBytes (bytes : ByteArray) : Result Block :=
  (Wire.decode readWire bytes).mapError fun f => .serialization f.message

end Block
end PowChain
