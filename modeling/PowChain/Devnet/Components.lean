import PowChain.Devnet.Messages
import PowChain.Net.Peers

/-!
# Console sessions over single components

Besides whole chains, the console drives single components: a store through
transactions of reads and writes, a block cache, and a peer set.  Each step
answers a document.

* A store transaction answers what its reads saw; asked to fail, it ends with
  a failure after its operations, so nothing is committed; a dry run never
  commits.
* Cache steps name block `n`: the zero header numbered `n`, with its hash.
* Peer steps add, drop, mark and look up peers; a set backed by a store can be
  read back from it, and records can be written there directly.
-/

namespace PowChain
namespace Devnet

open Json

/-! ## Stores -/

/-- An operation inside a store transaction. -/
inductive StoreOp where
  | set (k v : ByteArray)
  | delete (k : ByteArray)
  | get (k : ByteArray)
  | scan (keyPrefix : ByteArray)

/-- A step of a store session. -/
inductive StoreStep where
  | get (k : ByteArray)
  | contains (k : ByteArray)
  | scan (keyPrefix : ByteArray)
  /-- A transaction; `fail` makes it fail after its operations. -/
  | update (ops : List StoreOp) (fail : Bool)
  | dryRun (ops : List StoreOp) (fail : Bool)

def entriesDoc (l : List (ByteArray × ByteArray)) : Doc :=
  View.list (fun (k, v) => .arr [View.hex k, View.hex v]) l

/-- Runs operations in a transaction, collecting what the reads saw. -/
def runOps : List StoreOp → TxnM (List Doc)
  | [] => pure []
  | op :: rest => do
    let seen ← match op with
      | .set k v => do TxnM.set k v; pure none
      | .delete k => do TxnM.delete k; pure none
      | .get k => do pure (some (match ← TxnM.get? k with | some v => View.hex v | none => .null))
      | .scan p => do pure (some (entriesDoc (← TxnM.scan p)))
    let more ← runOps rest
    pure (match seen with | some d => d :: more | none => more)

def transaction (ops : List StoreOp) (fail : Bool) : TxnM Doc := do
  let seen ← runOps ops
  if fail then throw .emptyBlock
  pure (.arr seen)

def StoreStep.run (s : Store) : StoreStep → Doc × Store
  | .get k => (View.result (fun v => match v with | some v => View.hex v | none => .null) (s.get? k), s)
  | .contains k => (View.result Doc.bool (s.contains k), s)
  | .scan p => (View.result entriesDoc (s.scan p), s)
  | .update ops fail =>
    match s.update (transaction ops fail) with
    | .ok (d, s) => (d, s)
    | .error e => (View.error e, s)
  | .dryRun ops fail => (View.result id (s.dryRun (transaction ops fail)), s)

/-! ## Block caches -/

/-- The block a cache step names: the zero header numbered `n`, hashed. -/
def numberedBlock (n : UInt64) : Block :=
  let h := { Header.zero with number := n }
  ⟨{ h with hash := h.computeHash }, []⟩

/-- A step of a block cache session. -/
inductive CacheStep where
  | insert (n : UInt64)
  | get (n : UInt64)
  | peek (n : UInt64)
  | remove (n : UInt64)
  | clear
  | stats

def numberDoc (b : Option Block) : Doc :=
  match b with
  | some b => View.word b.header.number
  | none => .null

def CacheStep.run (c : Lru Digest Block) : CacheStep → Doc × Lru Digest Block
  | .insert n => let b := numberedBlock n; (.null, c.put b.hash b)
  | .get n => let (r, c) := c.get (numberedBlock n).hash; (numberDoc r, c)
  | .peek n => (numberDoc (c.peek (numberedBlock n).hash), c)
  | .remove n => let (r, c) := c.remove (numberedBlock n).hash; (numberDoc r, c)
  | .clear => (.null, c.clear)
  | .stats =>
    (.obj [("len", View.nat c.size), ("capacity", View.nat c.capacity), ("hits", View.nat c.hits),
      ("misses", View.nat c.misses), ("is_empty", .bool c.isEmpty)], c)

/-! ## Peer sets -/

open Net in
/-- A peer as a document. -/
def peerDoc (p : PeerNode) : Doc :=
  .obj [("addr", .str p.addr), ("is_root", .bool p.isRoot), ("sync_mode", .str p.syncMode.name),
    ("account", match p.account with | some a => View.address a | none => .null),
    ("connected", .bool p.connected)]

/-- A step of a peer set session. -/
inductive PeerStep where
  | add (addr : String)
  | remove (addr : String)
  | mark (addr : String) (connected : Bool)
  | contains (addr : String)
  | get (addr : String)
  | addrs
  | size
  | reload
  /-- Writes raw bytes as the record of `addr`. -/
  | putRaw (addr : String) (value : ByteArray)
  | socketAddr (addr : String)

open Net in
def PeerStep.run (ps : PeerSet) (s : Store) : PeerStep → Doc × PeerSet × Store
  | .add a => let (r, ps, s) := ps.addPeer s a; (View.result Doc.bool r, ps, s)
  | .remove a => let (r, ps, s) := ps.remove s a; (View.result Doc.bool r, ps, s)
  | .mark a c => (.null, ps.markConnected a c, s)
  | .contains a => (.bool (ps.contains a), ps, s)
  | .get a => (match ps.get? a with | some p => peerDoc p | none => .null, ps, s)
  | .addrs => (View.list Doc.str ps.addrs, ps, s)
  | .size =>
    (.obj [("len", View.nat ps.size), ("is_empty", .bool ps.isEmpty), ("max", View.nat ps.maxPeers)], ps, s)
  | .reload =>
    match PeerSet.load s ps.maxPeers with
    | .ok ps => (View.list Doc.str ps.addrs, ps, s)
    | .error e => (View.error e, ps, s)
  | .putRaw a v =>
    match s.put (Keys.peer a) v with
    | .ok s => (View.done, ps, s)
    | .error e => (View.error e, ps, s)
  | .socketAddr a => (View.result (fun x => .str x.toText) ({ addr := a } : PeerNode).socketAddr, ps, s)

end Devnet
end PowChain
