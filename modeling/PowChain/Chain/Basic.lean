import PowChain.Ledger.Engine
import PowChain.Chain.Cache
import PowChain.Block.Validation
import PowChain.Genesis.Json
import PowChain.Mining.Search

/-!
# The canonical chain

A chain lives in a store: block records under their raw hash, the tip hash
under `lh`, the number of blocks (genesis included) under `cl`, the genesis
document under `g`, and the accounts, transactions and receipts.  `Chain`
holds the store with the genesis record, the tip, and a cache of recently
read or appended blocks.

`bootstrap` writes genesis into an empty store; `resume` reads an existing
chain back; `append` validates a block against the tip (linkage, body, a
timestamp after the parent's) and applies it, committing block, accounts,
receipts, tip and length together, or nothing.  Walks go from a block back
along parent links and end after the block whose parent is the zero digest.

Operations that read blocks move them into the cache, so they run in
`ChainM`, whose state survives a failure, as a cache does.
-/

namespace PowChain

/-- A chain over its store. -/
structure Chain where
  store : Store
  genesis : Genesis
  tip : ChainTip
  cache : Lru Digest Block := Lru.empty 100

/-- Whether any block follows genesis. -/
inductive ChainStatus where
  | bootstrapped
  | extended (length : UInt64)
  deriving DecidableEq, Repr

/-- What appending a block did. -/
inductive AppendOutcome where
  | extended (hash : Digest) (length : UInt64) (receipts : List Receipt)
  /-- The block was stored already; nothing changed. -/
  | alreadyKnown

/-- A computation on a chain; the chain it leaves behind is kept on failure. -/
abbrev ChainM (α : Type) := ExceptT LedgerError (StateM Chain) α

namespace Chain

/-- Whether the store holds a chain. -/
def isInitialized (s : Store) : Result Bool := s.contains Keys.tip

/-- Bootstraps a chain from `g` in a store that holds none. -/
def bootstrap (s : Store) (g : Genesis) : Result Chain := do
  if ← isInitialized s then throw .alreadyInitialized
  let block ← g.toBlock
  let accounts ← g.accounts
  let ((), s) ← s.update do
    for (a, acct) in accounts do TxnM.putAccount a acct
    TxnM.set (Keys.block block.hash.bytes) block.toBytes
    TxnM.set Keys.genesis g.toJson.toUTF8
    TxnM.set Keys.tip block.hash.bytes
    TxnM.set Keys.chainLength (Wire.u64 1)
  pure { store := s, genesis := g, tip := ⟨block.hash, 1⟩ }

/-- Reopens the chain kept in a store. -/
def resume (s : Store) : Result Chain := do
  let some tipBytes ← s.get? Keys.tip | throw .notInitialized
  let some hash := Digest.ofBytes? tipBytes | throw (.database "Stored tip is not 32 bytes")
  let some length ← s.getDecoded Wire.readU64 Keys.chainLength
    | throw (.database "Chain length missing")
  let some doc ← s.get? Keys.genesis | throw .genesisNotFound
  let g ← Genesis.ofStored doc
  pure { store := s, genesis := g, tip := ⟨hash, length⟩ }

/-- Resumes the chain of a store, or bootstraps one from `g`. -/
def resumeOrBootstrap (s : Store) (g : Genesis) : Result Chain := do
  if ← isInitialized s then resume s else bootstrap s g

/-- The number of the newest block. -/
def bestHeight (c : Chain) : UInt64 := if c.tip.length = 0 then 0 else c.tip.length - 1

def status (c : Chain) : ChainStatus :=
  if c.tip.length ≤ 1 then .bootstrapped else .extended c.tip.length

def difficulty (c : Chain) : Nat := c.genesis.difficulty.toNat

def genesisBlock (c : Chain) : Result Block := c.genesis.toBlock

/-- Whether a block is known, in the cache or in the store. -/
def containsBlock (c : Chain) (h : Digest) : Result Bool :=
  if (c.cache.peek h).isSome then .ok true else c.store.contains (Keys.block h.bytes)

/-- The block stored under `h`; one read from the store enters the cache
under its own header hash. -/
def getBlock (h : Digest) : ChainM Block := do
  let c ← get
  let (found, cache) := c.cache.get h
  set { c with cache }
  match found with
  | some b => pure b
  | none =>
    match ← c.store.get? (Keys.block h.bytes) with
    | none => throw (.blockNotFound h.toHex)
    | some bytes =>
      let b ← decodeRecord Block.readWire bytes
      modify fun c => { c with cache := c.cache.put b.hash b }
      pure b

/-- After one block a walk goes on with a new state, or stops with a result. -/
inductive Walk (σ α : Type) where
  | more (s : σ)
  | stop (a : α)

/-- Walks back from `h` along parent links for at most `fuel` blocks, feeding
each block to `step`; after the block whose parent is the zero digest the
walk ends with `finish`. -/
def walkFrom {σ α : Type} (step : σ → Block → Result (Walk σ α)) (finish : σ → Result α) :
    Nat → Digest → σ → ChainM α
  | 0, _, s => finish s
  | fuel + 1, h, s => do
    let b ← getBlock h
    match ← step s b with
    | .stop a => pure a
    | .more s =>
      if b.header.parentHash.isZero then finish s
      else walkFrom step finish fuel b.header.parentHash s

/-- A bound on the length of a walk without a cycle: each block it visits is
found under a distinct key, a stored one or the header hash of a stored or
cached block. -/
def walkBound (c : Chain) : Nat := 2 * c.store.size + c.cache.size + 1

/-- The block numbered `n` on the canonical chain. -/
def blockByNumber (n : UInt64) : ChainM Block := do
  let c ← get
  let missing : LedgerError := .blockNotFound s!"#{n}"
  if n ≥ c.tip.length then throw missing
  walkFrom (fun () b => .ok (if b.header.number == n then .stop b else .more ()))
    (fun () => .error missing) c.walkBound c.tip.hash ()

/-- The canonical block hashes, genesis first. -/
def blockHashes : ChainM (List Digest) := do
  let c ← get
  walkFrom (fun acc (b : Block) => .ok (.more (b.hash :: acc))) (fun acc => .ok acc)
    c.walkBound c.tip.hash []

/-- Checks that a header extends the tip. -/
def validateNextHeader (c : Chain) (h : Header) : Result Unit := validateNext c.tip h

/-- Checks a block's header against what applying the block produced: the
state root, the receipt root, then the nether used. -/
def checkApplied (applied : Application) (h : Header) : Result Unit := do
  if applied.stateRoot != h.stateRoot then throw (.invalidBlock "State root mismatch")
  if applied.receiptRoot != h.receiptRoot then throw (.invalidBlock "Receipt root mismatch")
  if applied.netherUsed != h.netherUsed then
    throw (.invalidBlock s!"Nether used mismatch. Expected {applied.netherUsed}, but got {h.netherUsed}.")

/-- Applies `b` inside a store transaction, checks its header, and writes the
block with the tip and length of a chain of `length` blocks. -/
def commitBlock (b : Block) (length : UInt64) : TxnM (List Receipt) := do
  let applied ← Ledger.applyBlockIn b
  checkApplied applied b.header
  TxnM.set (Keys.block b.hash.bytes) b.toBytes
  TxnM.set Keys.tip b.hash.bytes
  TxnM.set Keys.chainLength (Wire.u64 length)
  pure applied.receipts

/-- Checks that `b` can follow the tip: linkage, body, and a timestamp after
its parent's, which is read. -/
def checkNext (b : Block) : ChainM Unit := do
  let c ← get
  validateNext c.tip b.header
  b.validateBody c.difficulty
  let parent ← getBlock c.tip.hash
  if b.header.timestamp.toInt ≤ parent.header.timestamp.toInt then
    throw (.invalidBlock s!"Block timestamp {b.header.timestamp.toInt} is not after parent timestamp {parent.header.timestamp.toInt}")

/-- Validates `b` and applies it on top of the tip. -/
def append (b : Block) : ChainM AppendOutcome := do
  let c ← get
  if ← c.containsBlock b.hash then return .alreadyKnown
  checkNext b
  let c ← get
  let length ← addWord c.tip.length 1
  let (receipts, store) ← c.store.update (commitBlock b length)
  set { c with store, tip := ⟨b.hash, length⟩, cache := c.cache.put b.hash b }
  pure (.extended b.hash length receipts)

/-- An unsealed block of `txs` on top of the tip, its roots and nether used
taken from a dry run.  The timestamp is the later of `now` and one past the
parent's. -/
def prepareBlock (now : Int) (txs : List SignedTx) (coinbase : Address) : ChainM Block := do
  if txs.isEmpty then throw .emptyBlock
  let c ← get
  let tip := c.tip
  let parent ← getBlock tip.hash
  let next := parent.header.timestamp.toInt + 1
  if next ≥ Nat.pow 2 63 then throw (.arithmeticOverflow "add")
  let h : Header := { Header.zero with
    parentHash := tip.hash, number := tip.nextNumber, timestamp := Int64.ofInt (max now next),
    txRoot := Block.txRootOf txs, coinbase }
  let c ← get
  let applied ← c.store.dryRun (Ledger.applyBlockIn ⟨h, txs⟩)
  let sealed : Header :=
    { h with stateRoot := applied.stateRoot, receiptRoot := applied.receiptRoot, netherUsed := applied.netherUsed }
  pure ⟨{ sealed with hash := sealed.computeHash }, txs⟩

/-- The counters of a chain check: the hash and number the next block must
carry, and how many blocks were seen. -/
structure Check where
  hash : Digest
  number : UInt64
  visited : UInt64

/-- Walks the chain from tip to genesis, checking hashes, linkage, numbering,
proof of work and transaction roots; the result is the number of blocks. -/
def verify : ChainM UInt64 := do
  let c ← get
  let tip := c.tip
  let step (k : Check) (b : Block) : Result (Walk Check UInt64) := do
    let visited := k.visited + 1
    if visited > tip.length then
      throw (.invalidBlock "Chain is longer than its recorded length")
    if b.hash != k.hash || b.header.computeHash != b.hash then throw .invalidHash
    let number := k.number - 1
    if b.header.number != number then throw (.invalidNumber number.toNat b.header.number.toNat)
    if !b.isGenesis then
      if !Mining.validate b.header c.difficulty then throw .invalidProofOfWork
      if Block.txRootOf b.transactions != b.header.txRoot then
        throw (.invalidBlock "Transaction root mismatch")
    pure (.more ⟨b.header.parentHash, number, visited⟩)
  let finish (k : Check) : Result UInt64 :=
    if k.visited != tip.length then
      .error (.invalidBlock s!"Walked {k.visited} blocks, expected {tip.length}")
    else .ok k.visited
  walkFrom step finish (tip.length.toNat + 1) tip.hash ⟨tip.hash, tip.length, 0⟩

/-- The debugging text: the genesis record and the tip. -/
def debug (c : Chain) : String :=
  let bytes := ", ".intercalate (c.tip.hash.bytes.toList.map fun b => toString b.toNat)
  "ChainManager \x7b genesis: " ++ c.genesis.debug ++ ", tip: ChainTip \x7b hash: [" ++ bytes ++
    s!"], length: {c.tip.length} \x7d, .. \x7d"

end Chain
end PowChain
