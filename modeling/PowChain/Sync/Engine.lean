import PowChain.Chain.Mine
import PowChain.Pool.Basic
import PowChain.Net.Message
import PowChain.Net.Peers
import PowChain.Sync.Settings

/-!
# Keeping nodes in step

Nodes of one network talk by messages.  Each node has an inbox, filled in the
order messages arrive; a message reaches a node only while it is on the
network, and travels in its wire form.  A send that fails drops the peer it
was for; one that succeeds marks the peer connected.

A node answers:

* `version h`: it remembers the sender; if the sender is higher it asks for
  the block inventory (unless it pulls no blocks), if lower it answers with
  its own height;
* `addr peers`: it remembers the sender and greets each new peer with its
  height;
* `getblocks`: it sends the hashes of its chain, genesis first;
* `inv` of blocks: it queues the unknown ones and asks the sender for the
  first; `inv` of transactions: it asks for each one it does not know;
* `getdata`: it sends the block or transaction asked for;
* `block`: it appends the block (a root relays it), then asks for the next
  queued block; when none is left a `full` node checks its whole chain.  A
  block that skips ahead makes it ask for the inventory again;
* `tx`: it takes the transaction into its pool; a root relays it, other
  nodes may start mining.

Mining starts when enabled, not stopped, with enough pending transactions and
no run in progress.  A run takes the pending transactions that still apply in
order, seals them with the reward on the tip at the clock's time, appends and
announces the block.  Runs are carried out after the step that started them.
-/

namespace PowChain
namespace Sync

open Net

/-- Blocks asked for from one peer, oldest first. -/
structure InTransit where
  source : Option String := none
  queue : List Digest := []

/-- A node of the network. -/
structure Node where
  /-- Its address on the network. -/
  name : String
  chain : Chain
  pool : Pool := {}
  peers : PeerSet := {}
  settings : Settings := {}
  inTransit : InTransit := {}
  /-- A mining run has started and not finished. -/
  mining : Bool := false
  /-- Mining was stopped for good. -/
  cancelled : Bool := false
  blocksReceived : Nat := 0
  /-- Messages waiting to be handled, oldest first. -/
  inbox : List Message := []
  /-- Whether messages can reach it. -/
  reachable : Bool := true

/-- A node's progress, as a status report shows it. -/
structure Status where
  height : UInt64
  pending : Nat
  peers : Nat
  downloading : Nat
  mining : Bool
  blocksReceived : Nat

def Node.status (n : Node) : Status :=
  ⟨n.chain.bestHeight, n.pool.size, n.peers.size, n.inTransit.queue.length, n.mining, n.blocksReceived⟩

/-- Nodes joined to one network. -/
structure Network where
  /-- In the order they joined. -/
  nodes : List Node := []
  /-- Nodes whose mining run has started and is not yet carried out, in order. -/
  runs : List String := []
  /-- The clock, in milliseconds, that mined blocks are dated by. -/
  clock : Int

/-- A network computation: its changes survive a failure. -/
abbrev NetM (α : Type) := ExceptT LedgerError (StateM Network) α

namespace Network

def node? (name : String) : NetM (Option Node) := do
  pure ((← get).nodes.find? (·.name == name))

def node (name : String) : NetM Node := do
  match ← node? name with
  | some n => pure n
  | none => throw (.network s!"unknown node {name}")

def setNode (n : Node) : NetM Unit :=
  modify fun w => { w with nodes := w.nodes.map fun m => if m.name == n.name then n else m }

def modifyNode (name : String) (f : Node → Node) : NetM Unit := do
  setNode (f (← node name))

/-- Runs a chain computation on a node's chain. -/
def onChain {α : Type} (name : String) (x : ChainM α) : NetM α := do
  let n ← node name
  let (r, c) := (x.run).run n.chain
  setNode { n with chain := c }
  match r with
  | .ok a => pure a
  | .error e => throw e

/-- Runs a peer-set change of a node, which may also write its store; the
change is kept even when its answer is a failure. -/
def onPeers {α : Type} (name : String) (f : PeerSet → Store → Result α × PeerSet × Store) : NetM α := do
  let n ← node name
  let (a, peers, store) := f n.peers n.chain.store
  setNode { n with peers, chain := { n.chain with store } }
  let a ← a
  pure a

/-- Takes a transaction into a node's pool; the answer is its preview receipt. -/
def accept (name : String) (tx : SignedTx) : NetM Receipt := do
  let n ← node name
  let (r, pool, store) ← n.pool.accept n.chain.store tx
  setNode { n with pool, chain := { n.chain with store } }
  pure r

/-- Drops a block's transactions from a node's pool. -/
def reconcile (name : String) (b : Block) : NetM Unit := do
  let n ← node name
  let (r, pool, store) := n.pool.reconcile n.chain.store b
  setNode { n with pool, chain := { n.chain with store } }
  let _ ← r

/-! ## Transport -/

/-- Puts a message, read back from its wire form, into the inbox of `to`. -/
def transmit (dest : String) (m : Message) : NetM Unit := do
  let delivered ← Message.decode (← m.encode)
  match ← node? dest with
  | some n =>
    if n.reachable then setNode { n with inbox := n.inbox ++ [delivered] }
    else throw (.network s!"{dest}: connection refused")
  | none => throw (.network s!"{dest}: connection refused")

/-- Sends from node `me` to `to`: a failure drops the peer, a success marks it
connected.  The answer says whether it arrived. -/
def sendTo (me dest : String) (m : Message) : NetM Bool := do
  let arrived ← tryCatch (do transmit dest m; pure true) fun _ => pure false
  if arrived then modifyNode me fun n => { n with peers := n.peers.markConnected dest true }
  else onPeers me fun ps s => let (_, ps, s) := ps.remove s dest; (.ok (), ps, s)
  pure arrived

/-- Sends to every peer of `me` but `except`. -/
def broadcast (me : String) (m : Message) (except : Option String) : NetM Unit := do
  for addr in (← node me).peers.addrs do
    if some addr != except then
      let _ ← sendTo me addr m

def version (me : String) (height : UInt64) : Message := ⟨me, .version height⟩

def blockMessage (me : String) (b : Block) : Message := ⟨me, .block b.toBytes⟩

def txMessage (me : String) (tx : SignedTx) : Message := ⟨me, .tx tx.toWire⟩

/-- Announces a block to every peer. -/
def announce (me : String) (b : Block) : NetM Unit :=
  broadcast me ⟨me, .inv .block [b.hash]⟩ none

/-- Sends the peers of `me`, and `me` itself, to `to`. -/
def sharePeers (me dest : String) : NetM Unit := do
  let known := (← node me).peers.addrs ++ [me]
  let _ ← sendTo me dest ⟨me, .addr known⟩

/-- Adds a peer unless it is the node itself. -/
def rememberPeer (me addr : String) : NetM Unit := do
  if addr != me then
    let _ ← onPeers me fun ps s => ps.addPeer s addr

/-! ## Mining -/

/-- Starts a mining run if mining is enabled and not stopped, enough
transactions are pending and no run is in progress. -/
def maybeMine (me : String) : NetM Bool := do
  let n ← node me
  if !n.settings.miningEnabled || n.cancelled || n.pool.size < max n.settings.minPending 1 then
    return false
  if n.mining then return false
  setNode { n with mining := true }
  modify fun w => { w with runs := w.runs ++ [me] }
  pure true

/-- The transactions that apply in order on the accounts of `s`, each one on
the state the earlier ones leave. -/
def applicable (s : Store) (txs : List SignedTx) : Result (List SignedTx) := do
  let step (acc : List SignedTx × Overlay) (tx : SignedTx) : Result (List SignedTx × Overlay) :=
    match tx.validate with
    | .error e => if e.isPanic then .error e else .ok acc
    | .ok () =>
      match tx.tx.transfer (acc.2.lookup s.account) with
      | .ok (sender, recipient) =>
        .ok (acc.1 ++ [tx], (acc.2.put tx.tx.sender sender).put tx.tx.recipient recipient)
      | .error e => if e.isPanic then .error e else .ok acc
  pure (← txs.foldlM step ([], {})).1

/-- Mines one block from the pending pool of `me`, appends and announces it. -/
def mine (me : String) : NetM Block := do
  let n ← node me
  let coinbase ← match n.settings.minerAddress with
    | some a => pure a
    | none => throw (.config "No miner address configured")
  let selected ← applicable n.chain.store (n.pool.drain n.settings.maxBlockTransactions)
  if selected.isEmpty then throw .emptyBlock
  let stop : Mining.Stop :=
    { cancelled := n.cancelled, deadlinePassed := n.settings.miningTimeout == some ⟨0, 0⟩ }
  let block ← onChain me (Chain.mineBlock (← get).clock (← get).clock selected coinbase
    n.settings.miningThreads.toUInt64 fun _ => stop.watch)
  let _ ← onChain me (Chain.append block)
  reconcile me block
  announce me block
  pure block

/-- Carries out the mining runs that were started, in order; a run's failure
ends only that run. -/
def finishRuns : Nat → NetM Unit
  | 0 => pure ()
  | fuel + 1 => do
    match (← get).runs with
    | [] => pure ()
    | me :: rest =>
      modify fun w => { w with runs := rest }
      let _ ← tryCatch (do let _ ← mine me) fun _ => pure ()
      modifyNode me fun n => { n with mining := false }
      finishRuns fuel

/-- Carries out every started mining run. -/
def settle : NetM Unit := do finishRuns ((← get).runs.length + 1)

/-! ## Handling messages -/

def handleVersion (me src : String) (remote : UInt64) : NetM Unit := do
  rememberPeer me src
  let n ← node me
  let own := n.chain.bestHeight
  if own < remote then
    if n.settings.syncMode.downloadsBlocks then
      let _ ← sendTo me src ⟨me, .getBlocks⟩
  else if own > remote then
    let _ ← sendTo me src (version me own)

def handleAddr (me src : String) (announced : List String) : NetM Unit := do
  rememberPeer me src
  let height := (← node me).chain.bestHeight
  for addr in announced do
    if addr != me then
      if ← onPeers me fun ps s => ps.addPeer s addr then
        let _ ← sendTo me addr (version me height)

def handleGetBlocks (me src : String) : NetM Unit := do
  let hashes ← onChain me Chain.blockHashes
  let _ ← sendTo me src ⟨me, .inv .block hashes⟩

def handleBlockInv (me src : String) (items : List Digest) : NetM Unit := do
  let n ← node me
  if !n.settings.syncMode.downloadsBlocks then return
  let unknown ← items.filterM fun h => do pure !(← n.chain.containsBlock h)
  setNode { n with inTransit := { source := some src, queue := unknown.drop 1 } }
  if let some h := unknown.head? then
    let _ ← sendTo me src ⟨me, .getData .block h⟩

/-- Whether a node holds a transaction, pending or recorded. -/
def knowsTransaction (n : Node) (h : Digest) : Result Bool :=
  if n.pool.contains h then .ok true else n.chain.store.contains (Keys.transaction h.bytes)

def handleTxInv (me src : String) (items : List Digest) : NetM Unit := do
  for h in items do
    if !(← knowsTransaction (← node me) h) then
      let _ ← sendTo me src ⟨me, .getData .tx h⟩

def handleGetData (me src : String) (kind : InvKind) (id : Digest) : NetM Unit := do
  let reply ← match kind with
    | .block => do pure (blockMessage me (← onChain me (Chain.getBlock id)))
    | .tx => do
      let n ← node me
      match n.pool.get? id with
      | some tx => pure (txMessage me tx)
      | none => do pure (txMessage me (← n.chain.store.transaction id))
  let _ ← sendTo me src reply

/-- Asks for the next queued block, or ends the download. -/
def requestNextBlock (me : String) : NetM Unit := do
  let n ← node me
  let queue := n.inTransit.queue
  setNode { n with inTransit := { n.inTransit with queue := queue.drop 1 } }
  match queue.head?, n.inTransit.source with
  | some h, some src => let _ ← sendTo me src ⟨me, .getData .block h⟩
  | _, _ =>
    modifyNode me fun n => { n with inTransit := { n.inTransit with source := none } }
    if n.settings.syncMode == .full then
      let _ ← onChain me Chain.verify

def handleBlock (me src : String) (b : Block) : NetM Unit := do
  modifyNode me fun n => { n with blocksReceived := n.blocksReceived + 1 }
  let r ← attemptResult (onChain me (Chain.append b))
  match r with
  | .ok (.extended ..) =>
    reconcile me b
    if (← node me).settings.isRoot then
      broadcast me ⟨me, .inv .block [b.hash]⟩ (some src)
  | .ok .alreadyKnown => pure ()
  | .error e =>
    let skipsAhead := match e with
      | .invalidParent | .invalidNumber .. => true
      | _ => false
    if skipsAhead && b.header.number ≥ (← node me).chain.tip.nextNumber then
      let _ ← sendTo me src ⟨me, .getBlocks⟩
      return
    throw e
  requestNextBlock me

def handleTx (me src : String) (tx : SignedTx) : NetM Unit := do
  if (← node me).pool.contains tx.hash then return
  let _ ← accept me tx
  if (← node me).settings.isRoot then broadcast me (txMessage me tx) (some src)
  else let _ ← maybeMine me

/-- Handles one message at node `me`. -/
def handle (me : String) (m : Message) : NetM Unit := do
  let src := m.sender
  match m.payload with
  | .version h => handleVersion me src h
  | .addr peers => handleAddr me src peers
  | .getBlocks => handleGetBlocks me src
  | .inv .block items => handleBlockInv me src items
  | .inv .tx items => handleTxInv me src items
  | .getData k id => handleGetData me src k id
  | .block bytes => handleBlock me src (← decodeBlockPayload bytes)
  | .tx bytes => handleTx me src (← decodeTxPayload bytes)

/-! ## Driving a node -/

/-- Adds bootstrap peers (not the node itself) and greets every peer. -/
def start (me : String) (bootstrap : List String) : NetM Unit := do
  for addr in bootstrap do
    if addr != me then
      let _ ← onPeers me fun ps s => ps.addPeer s addr
  broadcast me (version me (← node me).chain.bestHeight) none

/-- Takes a local transaction into the pool, gossips it and may start mining. -/
def submit (me : String) (tx : SignedTx) : NetM Receipt := do
  let r ← accept me tx
  broadcast me (txMessage me tx) none
  if !(← node me).settings.isRoot then
    let _ ← maybeMine me
  pure r

/-- Stops mining for good. -/
def shutdown (me : String) : NetM Unit :=
  modifyNode me fun n => { n with cancelled := true }

/-- Takes a node off the network: nothing new reaches it. -/
def leave (me : String) : NetM Unit :=
  modifyNode me fun n => { n with reachable := false }

/-- Takes the oldest message from a node's inbox. -/
def pop (me : String) : NetM (Option Message) := do
  let n ← node me
  match n.inbox with
  | [] => pure none
  | m :: rest => setNode { n with inbox := rest }; pure (some m)

end Network
end Sync
end PowChain
