import PowChain.Devnet.Session
import PowChain.Devnet.Messages
import PowChain.Rpc.Handler

/-!
# A console session over a network of nodes

A network session starts nodes from one genesis, each with its own chain,
pool, peers and settings, joined to one network, and runs steps on them.
Blocks built on any node go into one list shared by all, which later steps
name by position.  After every step the mining runs it started are carried
out, so the next step sees their blocks.

`run` delivers mail: it goes over the nodes in order, and each node with
mail handles its oldest message, until a whole pass finds no mail or the
limit of deliveries is reached.
-/

namespace PowChain
namespace Devnet

open Sync Net

/-- How a node is set up. -/
structure NodeSpec where
  name : String
  maxPeers : Nat := PeerSet.defaultMaxPeers
  settings : Sync.Settings := {}

/-- Which block a block request asks for. -/
inductive QuerySpec where
  | tip
  | hash (h : HashRef)
  | number (n : UInt64)

/-- The body of a call: raw bytes, or the wire form of what it names. -/
inductive CallBody where
  | raw (b : ByteArray)
  | text (s : String)
  | tx (t : TxSpec)
  | block (i : Int)
  | query (q : QuerySpec)
  | digest (h : HashRef)
  | empty

def CallBody.build (blocks : Array Block) : CallBody → Result ByteArray
  | .raw b => .ok b
  | .text s => .ok (Wire.str s)
  | .tx t => do pure (← t.build {}).toWire
  | .block i => do pure (← blockAt blocks i).toBytes
  | .query .tip => .ok (Rpc.BlockQuery.tip.toWire)
  | .query (.number n) => .ok (Rpc.BlockQuery.number n).toWire
  | .query (.hash h) => do pure (Rpc.BlockQuery.hash (← h.resolve blocks)).toWire
  | .digest h => do pure (← h.resolve blocks).bytes
  | .empty => .ok ByteArray.empty

/-- One step of a network session. -/
inductive NetStep where
  | handle (node : String) (m : MessageSpec)
  | deliver (node : String)
  | run (max : Nat)
  | inbox (node : String)
  | start (node : String) (bootstrap : List String)
  | status (node : String)
  | peers (node : String)
  | addPeer (node addr : String)
  | send (node dest : String) (m : MessageSpec)
  | sharePeers (node dest : String)
  | announce (node : String) (block : Int)
  | leave (node : String)
  | submit (node : String) (tx : TxSpec)
  | mine (node : String)
  | rpc (node : String) (kind : Rpc.CallKind) (body : CallBody) (decode : Bool)
  | maybeMine (node : String)
  | shutdown (node : String)
  | drainRun (node : String)
  | chain (node : String) (step : Step)

end Devnet

namespace View

open Json

/-- The answer of a call, read from its body; a failed call shows as the
network error its status and sentence make. -/
def callAnswer (kind : Rpc.CallKind) (r : Rpc.Response) : Doc :=
  if !r.isOk then error (.network (r.status.name ++ ": " ++ Utf8.lossy r.payload))
  else
    let read {α : Type} (rd : Wire.Reader α) (f : α → Doc) : Doc := result f (Rpc.decodeBody rd r.payload)
    match kind with
    | .syncGenesis => .str (Utf8.lossy r.payload)
    | .syncPeers => read (Wire.readSeq Wire.readStr) (list .str)
    | .addPeer => read Wire.readBool .bool
    | .txAdd => read Receipt.readWire receipt
    | .blockAdd => read Wire.readU64 word
    | .blockGet => read Block.readWire block
    | .txGet =>
      read (do
          let t ← SignedTx.readWire
          let rc ← Wire.readOption Receipt.readWire
          pure (t, rc))
        fun (t, rc) => .obj [("tx", tx t), ("receipt", match rc with | some x => receipt x | none => .null)]
    | .invite => .null
    | .version =>
      read (do
          let v ← Wire.readStr
          let p ← Wire.readU8
          let c ← Wire.readU64
          let h ← Wire.readU64
          let t ← Digest.readWire
          pure (v, p, c, h, t))
        fun (v, p, c, h, t) => .obj [("node_version", .str v), ("protocol_version", nat p.toNat),
          ("chain_id", word c), ("best_height", word h), ("tip", digest t)]

end View

namespace Devnet

open Sync Net

/-- The network and the blocks built so far. -/
structure World where
  net : Network
  blocks : Array Block := #[]

abbrev WorldM (α : Type) := ExceptT LedgerError (StateM World) α

namespace World

/-- Starts the nodes, each on a fresh store with a chain from `g`. -/
def create (g : Genesis) (clock : Int) (specs : List NodeSpec) : Result World := do
  let nodes ← specs.mapM fun s => do
    let chain ← Chain.bootstrap {} g
    pure ({ name := s.name, chain, peers := { maxPeers := s.maxPeers }, settings := s.settings } : Node)
  pure { net := { nodes, clock } }

/-- Runs a network computation. -/
def onNet {α : Type} (x : NetM α) : WorldM α := do
  let w ← get
  let (r, net) := (x.run).run w.net
  set { w with net }
  match r with
  | .ok a => pure a
  | .error e => throw e

/-- A network computation's answer, or its failure, as a document. -/
def attempt {α : Type} (view : α → Json.Doc) (x : NetM α) : WorldM Json.Doc := do
  let r ← attemptResult (onNet x)
  pure (View.result view r)

def message (m : MessageSpec) : WorldM Message := do m.build (← get).blocks

/-- Handles the oldest message of a node, if it has one. -/
def deliverOne (name : String) : WorldM (Option (Message × Json.Doc)) := do
  match ← onNet (Network.pop name) with
  | none => pure none
  | some m => do pure (some (m, ← attempt (fun () => View.done) (Network.handle name m)))

/-- One pass over the nodes in order, each with mail handling one message,
within a limit; the answer is what was delivered. -/
def pass (limit : Nat) : List String → WorldM (List (String × Message × Json.Doc))
  | [] => pure []
  | name :: rest => do
    if limit == 0 then return []
    match ← deliverOne name with
    | none => pass limit rest
    | some (m, r) => do pure ((name, m, r) :: (← pass (limit - 1) rest))

/-- Passes over the nodes until one delivers nothing or `limit` deliveries
are made. -/
def deliverAll : Nat → Nat → WorldM (List (String × Message × Json.Doc))
  | 0, _ => pure []
  | fuel + 1, limit => do
    if limit == 0 then return []
    let names := (← get).net.nodes.map (·.name)
    let got ← pass limit names
    if got.isEmpty then pure []
    else do pure (got ++ (← deliverAll fuel (limit - got.length)))

/-- Handles every message in a node's inbox. -/
def drain (name : String) : Nat → WorldM Unit
  | 0 => pure ()
  | fuel + 1 => do
    match ← deliverOne name with
    | none => pure ()
    | some _ => drain name fuel

def statusDoc (s : Status) : Json.Doc :=
  .obj [("height", View.word s.height), ("pending", View.nat s.pending), ("peers", View.nat s.peers),
    ("downloading", View.nat s.downloading), ("mining", .bool s.mining),
    ("blocks_received", View.nat s.blocksReceived)]

def mined (b : Block) : Json.Doc :=
  let plain := b.transactions.filter (!·.isReward)
  let reward := match b.transactions.find? (·.isReward) with
    | some r => .obj [("to", View.address r.tx.recipient), ("value", View.word r.tx.value)]
    | none => .null
  .obj [("number", View.word b.header.number), ("txs", View.list (fun t => View.digest t.hash) plain),
    ("reward", reward)]

def responseDoc (kind : Rpc.CallKind) (decode : Bool) (r : Rpc.Response) : Json.Doc :=
  let base := [("status", Json.Doc.str r.status.name), ("payload", View.hex r.payload)]
  if decode then .obj (base ++ [("is_ok", .bool r.isOk), ("body", View.callAnswer kind r)])
  else .obj base

/-- What a step answers. -/
def answer (g : Genesis) : NetStep → WorldM Json.Doc
  | .handle n m => do
    let msg ← message m
    attempt (fun () => View.done) (Network.handle n msg)
  | .deliver n => do
    match ← deliverOne n with
    | none => pure (.obj [("empty", .bool true)])
    | some (m, r) => pure (.obj [("message", View.message m), ("result", r)])
  | .run max => do
    let got ← deliverAll (max + 1) max
    pure (.arr (got.map fun (n, m, r) => .obj [("node", .str n), ("message", View.message m), ("result", r)]))
  | .inbox n => do
    let node ← onNet (Network.node n)
    onNet (Network.setNode { node with inbox := [] })
    pure (View.list View.message node.inbox)
  | .start n boot => attempt (fun () => View.done) (Network.start n boot)
  | .status n => do pure (statusDoc (← onNet (Network.node n)).status)
  | .peers n => do pure (View.list .str (← onNet (Network.node n)).peers.addrs)
  | .addPeer n a => attempt .bool (Network.onPeers n fun ps s => ps.addPeer s a)
  | .send n dest m => do
    let msg ← message m
    pure (.bool (← onNet (Network.sendTo n dest msg)))
  | .sharePeers n dest => do onNet (Network.sharePeers n dest); pure .null
  | .announce n i => do
    let b ← blockAt (← get).blocks i
    onNet (Network.announce n b)
    pure .null
  | .leave n => do onNet (Network.leave n); pure .null
  | .submit n t => do
    let tx ← t.build {}
    attempt View.receipt (Network.submit n tx)
  | .mine n => attempt mined (Network.mine n)
  | .rpc n kind body decode => do
    let payload ← body.build (← get).blocks
    let r ← onNet (Rpc.handle n ⟨kind, payload⟩)
    pure (responseDoc kind decode r)
  | .maybeMine n => do pure (.bool (← onNet (Network.maybeMine n)))
  | .shutdown n => do onNet (Network.shutdown n); pure .null
  | .drainRun n => do
    onNet (Network.leave n)
    drain n ((← onNet (Network.node n)).inbox.length + 1)
    pure (statusDoc (← onNet (Network.node n)).status)
  | .chain n st => do
    let w ← get
    let node ← onNet (Network.node n)
    let (d, s) := Session.step g st { chain := node.chain, pool := node.pool, blocks := w.blocks }
    set { w with blocks := s.blocks }
    onNet (Network.setNode { node with chain := s.chain, pool := s.pool })
    pure d

/-- Runs one step, then the mining runs it started. -/
def step (g : Genesis) (st : NetStep) (w : World) : Json.Doc × World :=
  let (r, w) := ((answer g st).run).run w
  let (_, w) := ((onNet Network.settle).run).run w
  (View.result id r, w)

def run (g : Genesis) (steps : List NetStep) (w : World) : List Json.Doc × World :=
  steps.foldl (fun (acc, w) st => let (d, w) := step g st w; (acc ++ [d], w)) ([], w)

end World
end Devnet
end PowChain
