import PowChain.Ledger.Account
import PowChain.Mining.Target

/-!
# The genesis record

A chain starts from a genesis record: its identifier, start time, the
difficulty every later block must meet, the miner credited in block 0, a
symbol, a parent hash that must be zero, free text, and the initial balances
keyed by address text.  Block 0 is built from it directly: no transactions,
not mined, its state root that of the initial accounts.

The checks run in a fixed order: the difficulty (at most 256 bits), the
parent hash (hexadecimal, 32 bytes, all zero), the coinbase address, then the
addresses of the allocation in key order.
-/

namespace PowChain

/-- The initial balance and nonce of one address. -/
structure GenesisAccount where
  balance : UInt64
  nonce : UInt64 := 0
  deriving DecidableEq, Repr

/-- The record a chain is bootstrapped from. -/
structure Genesis where
  chainId : UInt64
  /-- Milliseconds since the Unix epoch; the timestamp of block 0. -/
  genesisTime : Int64
  /-- Leading zero bits required of every later block hash. -/
  difficulty : UInt32
  gasLimit : UInt64 := 0
  coinbase : String
  symbol : String := "NTH"
  parentHash : String := Hex.encode (Bytes.replicate 32 0)
  extraData : String := ""
  /-- Initial accounts by address text, sorted by that text, each key once. -/
  alloc : List (String × GenesisAccount) := []

namespace Genesis

/-- Inserts an allocation, replacing one with the same key and keeping keys
sorted. -/
def insertAlloc (k : String) (v : GenesisAccount) :
    List (String × GenesisAccount) → List (String × GenesisAccount)
  | [] => [(k, v)]
  | (k', v') :: rest =>
    if k < k' then (k, v) :: (k', v') :: rest
    else if k == k' then (k, v) :: rest
    else (k', v') :: insertAlloc k v rest

/-- A development genesis: chain 1337, started at 1700000000000, with the
given miner, difficulty and balances. -/
def dev (coinbase : Address) (difficulty : UInt32) (alloc : List (Address × UInt64)) : Genesis :=
  { chainId := 1337, genesisTime := 1700000000000, difficulty, coinbase := coinbase.encode,
    alloc := alloc.foldl (fun acc (a, b) => insertAlloc a.encode ⟨b, 0⟩ acc) [] }

def checkDifficulty (g : Genesis) : Result Unit :=
  if g.difficulty.toNat > Target.maxBits then
    .error (.config s!"Genesis difficulty {g.difficulty.toNat} exceeds {Target.maxBits} bits")
  else .ok ()

/-- The parent hash, which must be the zero digest. -/
def parent (g : Genesis) : Result Digest :=
  match Hex.decode g.parentHash with
  | .error e => .error (.invalidBlock ("Genesis parent hash is not hex: " ++ e.message))
  | .ok b =>
    match Digest.ofBytes? b with
    | none => .error (.invalidBlock "Genesis parent hash must be 32 bytes")
    | some d => if d.isZero then .ok d else .error (.invalidBlock "Genesis parent hash must be zero")

def coinbaseAddress (g : Genesis) : Result Address := Address.decode g.coinbase

/-- The initial accounts, in address order. -/
def accounts (g : Genesis) : Result (List (Address × Account)) := do
  let l ← g.alloc.mapM fun (k, v) => do pure (← Address.decode k, ({ balance := v.balance, nonce := v.nonce } : Account))
  pure (sortAccounts l)

/-- Every check of a record read from a document. -/
def check (g : Genesis) : Result Unit := do
  g.checkDifficulty
  let _ ← g.parent
  let _ ← g.coinbaseAddress
  let _ ← g.accounts

/-- Block 0. -/
def toBlock (g : Genesis) : Result Block := do
  g.checkDifficulty
  let parentHash ← g.parent
  let accts ← g.accounts
  let coinbase ← g.coinbaseAddress
  let h : Header := { Header.zero with
    parentHash, timestamp := g.genesisTime, stateRoot := stateRootSorted accts, coinbase }
  pure ⟨{ h with hash := h.computeHash }, []⟩

/-- The structured debugging form. -/
def debug (g : Genesis) : String :=
  let allocText := ", ".intercalate (g.alloc.map fun (k, v) =>
    Text.quoteString k ++ s!": GenesisAccount \x7b balance: {v.balance}, nonce: {v.nonce} \x7d")
  s!"Genesis \x7b chain_id: {g.chainId}, genesis_time: {g.genesisTime.toInt}, difficulty: {g.difficulty}, gas_limit: {g.gasLimit}, coinbase: " ++
    Text.quoteString g.coinbase ++ ", symbol: " ++ Text.quoteString g.symbol ++ ", parent_hash: " ++
    Text.quoteString g.parentHash ++ ", extra_data: " ++ Text.quoteString g.extraData ++
    ", alloc: \x7b" ++ allocText ++ "\x7d \x7d"

end Genesis
end PowChain
