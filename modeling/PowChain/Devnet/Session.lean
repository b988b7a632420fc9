import PowChain.Devnet.Spec
import PowChain.Devnet.View
import PowChain.Pool.Basic

/-!
# A console session over one chain

A session holds a chain, its pending pool and the blocks built so far, which
later steps name by position (a negative position counts from the end).  Each
step reads or changes the session and answers a document; a failed step
answers its failure and leaves the session as the failure left it.

Building a block on the tip takes, in order: the described transactions,
numbered as the next block; unless left out, a reward to the coinbase worth
the block reward of those transactions; a header from a dry run of the
transactions (or a bare header that links to the tip); the header patch; a
seal at the chain's difficulty (or only the computed hash); a last patch,
which may also replace the transactions; and an append, which may be
followed by reconciling the pool with the block.

Raw steps read and write store entries directly, to damage a chain on
purpose.
-/

namespace PowChain
namespace Devnet

/-- A chain, its pending pool and the blocks built so far. -/
structure Session where
  chain : Chain
  pool : Pool := {}
  blocks : Array Block := #[]

/-- A built block named by position, or any block by hash. -/
inductive BlockRef where
  | index (i : Int)
  | hash (h : Digest)

/-- A transaction named by hash or by description. -/
inductive TxRef where
  | hash (h : Digest)
  | spec (t : TxSpec)

/-- A store key: raw bytes, text, or where a record of some kind lives. -/
inductive KeyRef where
  | raw (b : ByteArray)
  | text (s : String)
  | block (i : Int)
  | balance (a : AccountRef)
  | tx (t : TxSpec)
  | receipt (t : TxSpec)
  | peer (addr : String)

/-- A store value: raw bytes, text, a 64-bit word, or a built block's wire form. -/
inductive ValueRef where
  | raw (b : ByteArray)
  | text (s : String)
  | word (n : UInt64)
  | block (i : Int)

/-- How to build a block on the tip. -/
structure BuildSpec where
  txs : List TxSpec := []
  coinbase : Option AccountRef := none
  timestamp : Int64
  reward : Bool := true
  rewardTime : Option Int64 := none
  prepare : Bool := true
  patch : HeaderPatch := {}
  mine : Bool := true
  after : HeaderPatch := {}
  afterTxs : Option (List TxSpec) := none
  append : Bool := true
  reconcile : Bool := false

/-- One step of a session. -/
inductive Step where
  | build (b : BuildSpec)
  | append (b : BlockRef) (reconcile : Bool)
  | appendSpec (b : BlockSpec)
  | applyBlock (b : BlockRef)
  | prepare (txs : List TxSpec) (coinbase : Option AccountRef)
  | applyTx (t : TxSpec)
  | applyReward (t : TxSpec)
  | account (a : AccountRef)
  | balance (a : AccountRef)
  | accounts
  | receipt (t : TxRef)
  | transaction (t : TxRef)
  | tip
  | block (b : BlockRef)
  | blockByNumber (n : UInt64)
  | blockHashes
  | genesisBlock
  | verifyChain
  | validateNext (h : HeaderPatch)
  | accept (t : TxSpec)
  | drain (limit : Option Nat)
  | reconcile (b : BlockRef)
  | pendingAccount (a : AccountRef)
  | pool
  | poolGet (t : TxRef)
  | cache
  | rawSet (k : KeyRef) (v : ValueRef)
  | rawDelete (k : KeyRef)
  | rawGet (k : KeyRef)
  | rawIterate (k : KeyRef)
  | debug
  | resume
  | reopen
  | rebootstrap

/-- A step's computation: its state survives a failure. -/
abbrev SessionM (α : Type) := ExceptT LedgerError (StateM Session) α

namespace Session

/-- Runs a chain computation on the session's chain. -/
def onChain {α : Type} (x : ChainM α) : SessionM α := do
  let s ← get
  let (r, c) := (x.run).run s.chain
  set { s with chain := c }
  match r with
  | .ok a => pure a
  | .error e => throw e

/-- The built block at a position. -/
def built (i : Int) : SessionM Block := do blockAt (← get).blocks i

def blockHashOf : BlockRef → SessionM Digest
  | .index i => do pure (← built i).hash
  | .hash h => pure h

def txHashOf : TxRef → Result Digest
  | .hash h => .ok h
  | .spec t => do pure (← t.build {}).hash

def keyOf : KeyRef → SessionM ByteArray
  | .raw b => pure b
  | .text t => pure t.toUTF8
  | .block i => do pure (Keys.block (← built i).hash.bytes)
  | .balance a => do pure (Keys.balance (← a.resolve).encode)
  | .tx t => do pure (Keys.transaction (← t.build {}).hash.bytes)
  | .receipt t => do pure (Keys.receipt (← t.build {}).hash.bytes)
  | .peer p => pure (Keys.peer p)

def valueOf : ValueRef → SessionM ByteArray
  | .raw b => pure b
  | .text t => pure t.toUTF8
  | .word n => pure (Wire.u64 n)
  | .block i => do pure (← built i).toBytes

/-- Adds a block to the built ones; the answer is its position. -/
def keep (b : Block) : SessionM Nat := do
  let s ← get
  set { s with blocks := s.blocks.push b }
  pure s.blocks.size

/-- Appends a block; after an extension the pool may be reconciled with it. -/
def appendBlock (b : Block) (reconcile : Bool) : SessionM AppendOutcome := do
  let out ← onChain (Chain.append b)
  if reconcile then
    if let .extended .. := out then
      let s ← get
      let (r, pool, store) := s.pool.reconcile s.chain.store b
      set { s with pool, chain := { s.chain with store } }
      let _ ← r
  pure out

/-- Replaces the chain by one read back from its store, with an empty pool. -/
def replaceChain (r : Result Chain) : SessionM Json.Doc := do
  let c ← r
  modify fun s => { s with chain := c, pool := {} }
  pure (.obj [("tip", View.tip c), ("difficulty", View.nat c.difficulty),
    ("chain_id", View.word c.genesis.chainId)])

/-- Builds a block on the tip as `b` says. -/
def buildBlock (b : BuildSpec) : SessionM Block := do
  let c := (← get).chain
  let number := c.tip.nextNumber
  let txs ← buildTxs (some number) b.txs
  let coinbase ← resolveOr b.coinbase
  let txs ← if b.reward then do
      pure (txs ++ [SignedTx.reward coinbase (← Block.reward txs) number (b.rewardTime.getD b.timestamp)])
    else pure txs
  let block ← if b.prepare then do
      let p ← onChain (Chain.prepareBlock 0 txs coinbase)
      pure { p with header := { p.header with timestamp := b.timestamp } }
    else
      let h : Header := { Header.zero with
        parentHash := c.tip.hash, number, timestamp := b.timestamp, coinbase,
        txRoot := Block.txRootOf txs }
      pure ⟨h, txs⟩
  let h ← b.patch.apply block.header
  let block ← if b.mine then Mining.mineBlock ⟨h, block.transactions⟩ c.difficulty
    else pure ⟨{ h with hash := h.computeHash }, block.transactions⟩
  let h ← b.after.apply block.header
  match b.afterTxs with
  | some specs => pure ⟨h, ← buildTxs (some number) specs⟩
  | none => pure ⟨h, block.transactions⟩

/-- What a step answers. -/
def answer (g : Genesis) : Step → SessionM Json.Doc
  | .build b => do
    let block ← buildBlock b
    let appended ← if b.append then do
        let r ← attemptResult (appendBlock block b.reconcile)
        pure (View.result View.appendOutcome r)
      else pure .null
    let index ← keep block
    pure (.obj [("index", View.nat index), ("block", View.block block), ("append", appended)])
  | .append r reconcile => do
    let b ← match r with
      | .index i => built i
      | .hash h => onChain (Chain.getBlock h)
    pure (View.appendOutcome (← appendBlock b reconcile))
  | .appendSpec spec => do
    let b ← spec.build
    let r ← attemptResult (appendBlock b false)
    let _ ← keep b
    pure (.obj [("block", View.block b), ("append", View.result View.appendOutcome r)])
  | .applyBlock r => do
    let b ← match r with
      | .index i => built i
      | .hash h => onChain (Chain.getBlock h)
    let s ← get
    let (a, store) ← s.chain.store.applyBlock b
    set { s with chain := { s.chain with store } }
    pure (View.application a)
  | .prepare specs coinbase => do
    let c := (← get).chain
    let txs ← buildTxs (some c.tip.nextNumber) specs
    let b ← onChain (Chain.prepareBlock 0 txs (← resolveOr coinbase))
    let h := b.header
    pure (.obj [("parent_hash", View.digest h.parentHash), ("number", View.word h.number),
      ("state_root", View.digest h.stateRoot), ("tx_root", View.digest h.txRoot),
      ("receipt_root", View.digest h.receiptRoot), ("nether_used", View.word h.netherUsed)])
  | .applyTx t => do
    let tx ← t.build {}
    let s ← get
    let (r, store) ← s.chain.store.applyTransaction tx
    set { s with chain := { s.chain with store } }
    pure (View.receipt r)
  | .applyReward t => do
    let tx ← t.build {}
    let s ← get
    let (r, store) ← s.chain.store.applyReward tx
    set { s with chain := { s.chain with store } }
    pure (View.receipt r)
  | .account a => do pure (View.account (← (← get).chain.store.account (← a.resolve)))
  | .balance a => do pure (View.word (← (← get).chain.store.balance (← a.resolve)))
  | .accounts => do pure (View.accounts (← (← get).chain.store.accounts))
  | .receipt t => do pure (View.receipt (← (← get).chain.store.receipt (← txHashOf t)))
  | .transaction t => do pure (View.tx (← (← get).chain.store.transaction (← txHashOf t)))
  | .tip => do pure (View.tip (← get).chain)
  | .block r => do
    let h ← blockHashOf r
    let contains ← (← get).chain.containsBlock h
    let got ← attemptResult (onChain (Chain.getBlock h))
    pure (.obj [("contains", .bool contains), ("get", View.result View.block got)])
  | .blockByNumber n => do pure (View.block (← onChain (Chain.blockByNumber n)))
  | .blockHashes => do pure (View.list View.digest (← onChain Chain.blockHashes))
  | .genesisBlock => do pure (View.block (← (← get).chain.genesisBlock))
  | .verifyChain => do pure (View.word (← onChain Chain.verify))
  | .validateNext p => do
    let h ← p.apply Header.zero
    pure (View.unit ((← get).chain.validateNextHeader h))
  | .accept t => do
    let tx ← t.build {}
    let s ← get
    let (r, pool, store) ← s.pool.accept s.chain.store tx
    set { s with pool, chain := { s.chain with store } }
    pure (View.receipt r)
  | .drain limit => do
    let p := (← get).pool
    pure (View.list (fun t => View.digest t.hash) (p.drain (limit.getD p.size)))
  | .reconcile r => do
    let b ← match r with
      | .index i => built i
      | .hash h => onChain (Chain.getBlock h)
    let s ← get
    let (report, pool, store) := s.pool.reconcile s.chain.store b
    set { s with pool, chain := { s.chain with store } }
    pure (View.reconcileReport (← report))
  | .pendingAccount a => do
    let s ← get
    pure (View.account (← s.pool.pendingAccount s.chain.store (← a.resolve)))
  | .pool => do
    let p := (← get).pool
    pure (.obj [("len", View.nat p.size), ("is_empty", .bool p.isEmpty),
      ("txs", View.list View.digest p.order)])
  | .poolGet t => do
    let h ← txHashOf t
    let p := (← get).pool
    pure (.obj [("contains", .bool (p.contains h)),
      ("tx", match p.get? h with | some tx => View.tx tx | none => .null)])
  | .cache => do
    let c := (← get).chain.cache
    pure (.obj [("len", View.nat c.size), ("capacity", View.nat c.capacity)])
  | .rawSet k v => do
    let key ← keyOf k
    let value ← valueOf v
    let store ← (← get).chain.store.put key value
    modify fun s => { s with chain := { s.chain with store } }
    pure View.done
  | .rawDelete k => do
    let key ← keyOf k
    let store ← (← get).chain.store.erase key
    modify fun s => { s with chain := { s.chain with store } }
    pure View.done
  | .rawGet k => do
    match ← (← get).chain.store.get? (← keyOf k) with
    | some v => pure (View.hex v)
    | none => pure .null
  | .rawIterate k => do
    let entries ← (← get).chain.store.scan (← keyOf k)
    pure (View.list (fun (k, v) => .arr [View.hex k, View.hex v]) entries)
  | .debug => do pure (.str (← get).chain.debug)
  | .resume => do replaceChain (Chain.resume (← get).chain.store)
  | .reopen => do replaceChain (Chain.resumeOrBootstrap (← get).chain.store g)
  | .rebootstrap => do replaceChain (Chain.bootstrap (← get).chain.store g)

/-- Runs one step: its answer, or its failure. -/
def step (g : Genesis) (st : Step) (s : Session) : Json.Doc × Session :=
  let (r, s) := ((answer g st).run).run s
  (View.result id r, s)

/-- Runs steps in order, collecting their answers. -/
def run (g : Genesis) (steps : List Step) (s : Session) : List Json.Doc × Session :=
  steps.foldl (fun (acc, s) st => let (d, s) := step g st s; (acc ++ [d], s)) ([], s)

end Session
end Devnet
end PowChain
