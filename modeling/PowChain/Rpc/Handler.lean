import PowChain.Rpc.Call
import PowChain.Sync.Engine
import PowChain.Genesis.Json

/-!
# Answering calls

A node answers each kind of call from its chain, pool and peers; request and
answer bodies are in the wire encoding:

* `SyncGenesis`: the genesis record as JSON text;
* `SyncPeers`: the peer addresses;
* `AddPeer addr`: whether the peer was new, greeting it if so;
* `TxAdd tx`: the preview receipt of a submitted transaction;
* `BlockAdd block`: the chain length after appending (and, for a new block,
  reconciling the pool and announcing the block);
* `BlockGet query`: the tip, or the block of a hash or number;
* `TxGet hash`: the transaction, pending or recorded, with its receipt if it
  has one;
* `Invite addr`: adds the peer and sends it the peer list;
* `Version`: the software and protocol versions, chain id, height and tip.

A failure answers with its status and sentence.
-/

namespace PowChain
namespace Rpc

open Sync Net

/-- The software version a node reports. -/
def nodeVersion : String := "0.2.0"

/-- Which block a `BlockGet` asks for. -/
inductive BlockQuery where
  | tip
  | hash (h : Digest)
  | number (n : UInt64)

namespace BlockQuery

def toWire : BlockQuery → ByteArray
  | .tip => Wire.u32 0
  | .hash h => Wire.u32 1 ++ h.bytes
  | .number n => Wire.u32 2 ++ Wire.u64 n

def readWire : Wire.Reader BlockQuery := do
  match ← Wire.readVariant 3 with
  | 0 => pure .tip
  | 1 => pure (.hash (← Digest.readWire))
  | _ => pure (.number (← Wire.readU64))

end BlockQuery

/-- A request or answer body in the wire encoding. -/
def decodeBody {α : Type} (r : Wire.Reader α) (b : ByteArray) : Result α :=
  (Wire.decode r b).mapError fun f => .serialization f.message

/-- The body of a `TxGet` answer. -/
def txLookupWire (tx : SignedTx) (receipt : Option Receipt) : ByteArray :=
  tx.toWire ++ Wire.option Receipt.toWire receipt

/-- The answer body of a call to node `me`. -/
def answer (me : String) (c : Call) : NetM ByteArray := do
  let n ← Network.node me
  match c.kind with
  | .syncGenesis => pure n.chain.genesis.toJson.toUTF8
  | .syncPeers => pure (Wire.seq Wire.str n.peers.addrs)
  | .addPeer =>
    let addr ← decodeBody Wire.readStr c.payload
    let added ← Network.onPeers me fun ps s => ps.addPeer s addr
    if added then
      let _ ← Network.sendTo me addr (Network.version me n.chain.bestHeight)
    pure (Wire.bool added)
  | .txAdd =>
    let tx ← SignedTx.ofBytes c.payload
    pure (← Network.submit me tx).toWire
  | .blockAdd =>
    let b ← Block.ofBytes c.payload
    match ← Network.onChain me (Chain.append b) with
    | .extended _ length _ =>
      Network.reconcile me b
      Network.announce me b
      pure (Wire.u64 length)
    | .alreadyKnown => pure (Wire.u64 (← Network.node me).chain.tip.length)
  | .blockGet =>
    let b ← match ← decodeBody BlockQuery.readWire c.payload with
      | .tip => Network.onChain me (Chain.getBlock n.chain.tip.hash)
      | .hash h => Network.onChain me (Chain.getBlock h)
      | .number k => Network.onChain me (Chain.blockByNumber k)
    pure b.toBytes
  | .txGet =>
    let h ← decodeBody Digest.readWire c.payload
    let tx ← match n.pool.get? h with
      | some tx => pure tx
      | none => n.chain.store.transaction h
    let receipt ← match n.chain.store.receipt h with
      | .ok r => pure (some r)
      | .error e => if e.isNotFound then pure none else throw e
    pure (txLookupWire tx receipt)
  | .invite =>
    let addr ← decodeBody Wire.readStr c.payload
    let _ ← Network.onPeers me fun ps s => ps.addPeer s addr
    Network.sharePeers me addr
    pure ByteArray.empty
  | .version =>
    pure (Wire.str nodeVersion ++ Wire.u8 protocolVersion ++ Wire.u64 n.chain.genesis.chainId ++
      Wire.u64 n.chain.bestHeight ++ n.chain.tip.hash.bytes)

/-- Answers a call to node `me`; a failure answers with its status, and a
panic is passed on. -/
def handle (me : String) (c : Call) : NetM Response :=
  tryRecover (Response.ok <$> answer me c) fun e => pure (Response.error e)

end Rpc
end PowChain
