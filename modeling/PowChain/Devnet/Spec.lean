import PowChain.Chain.Basic

/-!
# Describing transactions and blocks

A development console names accounts, transactions and blocks by
descriptions that it turns into records.

* An account is named by a secret key (sixty-four hex digits), which stands
  for the key's address, or by an address text.
* A transaction is a reward, or a transfer that is signed with a given key,
  with the sender's key when the sender was named by one, or not at all, or
  that carries an explicit signature.
* Inside a block, a reward's number and value may be left to the block: the
  number is the block's, the value is the block reward of the other
  transactions.
* A header is described by the fields that differ from a base header.
-/

namespace PowChain
namespace Devnet

/-- An account named by a secret key or by an address text. -/
inductive AccountRef where
  | key (secretHex : String)
  | text (s : String)

namespace AccountRef

/-- Sixty-four hex digits name a key; any other text an address. -/
def parse (s : String) : AccountRef :=
  if s.length == 64 && s.all Char.isHexDigit then .key s else .text s

def resolve : AccountRef → Result Address
  | .key s => do pure (← KeyPair.ofSecretHex s).address
  | .text s => Address.decode s

end AccountRef

/-- The address of an optional account; none names the zero address. -/
def resolveOr : Option AccountRef → Result Address
  | none => .ok Address.zero
  | some r => r.resolve

/-- A number given outright, or left to the surrounding block. -/
inductive Amount where
  | given (n : UInt64)
  | auto

/-- A reward: recipient, value, block number and time; a given sender
replaces the zero sender afterwards. -/
structure RewardSpec where
  recipient : Option AccountRef := none
  value : Amount := .given 0
  number : Option Amount := none
  time : Int64 := 0
  sender : Option AccountRef := none

/-- How a transfer is signed. -/
inductive Signer where
  /-- With the sender's key if the sender was named by one. -/
  | sender
  | key (secretHex : String)
  | unsigned
  | explicit (signature : ByteArray)

/-- A standard transfer. -/
structure TransferSpec where
  sender : Option AccountRef := none
  recipient : Option AccountRef := none
  nonce : UInt64 := 0
  value : UInt64 := 0
  fee : UInt64 := 0
  feePrice : UInt64 := 0
  data : ByteArray := ByteArray.empty
  time : Int64 := 0
  signer : Signer := .sender

/-- A transaction description. -/
inductive TxSpec where
  | reward (r : RewardSpec)
  | transfer (t : TransferSpec)

/-- What a block lends the transactions described inside it: its number and
the reward of the transactions whose value is not left to it. -/
structure TxContext where
  number : Option UInt64 := none
  reward : Option UInt64 := none

namespace TxSpec

/-- Whether the value is left to the block. -/
def isAutoReward : TxSpec → Bool
  | .reward { value := .auto, .. } => true
  | _ => false

def build (c : TxContext) : TxSpec → Result SignedTx
  | .reward r => do
    let dest ← resolveOr r.recipient
    let value ← match r.value with
      | .given v => pure v
      | .auto => match c.reward with
        | some v => pure v
        | none => throw (.invalidTransaction "A reward value left to the block needs a block")
    let number ← match r.number with
      | some (.given n) => pure n
      | none => pure (c.number.getD 0)
      | some .auto => match c.number with
        | some n => pure n
        | none => throw (.invalidTransaction "A reward number left to the block needs a block")
    let s := SignedTx.reward dest value number r.time
    match r.sender with
    | none => pure s
    | some a => pure { s with tx := { s.tx with sender := ← a.resolve } }
  | .transfer t => do
    let tx : Transaction := ⟨← resolveOr t.sender, ← resolveOr t.recipient, t.nonce, t.value,
      t.fee, t.feePrice, t.data, t.time⟩
    match t.signer, t.sender with
    | .explicit sig, _ => pure ⟨tx, sig⟩
    | .unsigned, _ => pure ⟨tx, ByteArray.empty⟩
    | .key k, _ => pure (SignedTx.sign tx (← KeyPair.ofSecretHex k))
    | .sender, some (.key k) => pure (SignedTx.sign tx (← KeyPair.ofSecretHex k))
    | .sender, _ => pure ⟨tx, ByteArray.empty⟩

end TxSpec

/-- The transactions of a block numbered `number`: rewards whose value is
left to the block get the reward of the others. -/
def buildTxs (number : Option UInt64) (specs : List TxSpec) : Result (List SignedTx) := do
  let others ← (specs.filter (!·.isAutoReward)).mapM (TxSpec.build { number })
  let reward ← if specs.any TxSpec.isAutoReward then some <$> Block.reward others else pure none
  specs.mapM (TxSpec.build { number, reward })

/-- The fields of a header that differ from a base header. -/
structure HeaderPatch where
  parentHash : Option Digest := none
  hash : Option Digest := none
  number : Option UInt64 := none
  timestamp : Option Int64 := none
  stateRoot : Option Digest := none
  txRoot : Option Digest := none
  receiptRoot : Option Digest := none
  netherUsed : Option UInt64 := none
  coinbase : Option AccountRef := none
  nonce : Option UInt64 := none

/-- The base header with the patch's fields. -/
def HeaderPatch.apply (p : HeaderPatch) (h : Header) : Result Header := do
  let coinbase ← match p.coinbase with
    | none => pure h.coinbase
    | some a => a.resolve
  pure ⟨p.parentHash.getD h.parentHash, p.hash.getD h.hash, p.number.getD h.number,
    p.timestamp.getD h.timestamp, p.stateRoot.getD h.stateRoot, p.txRoot.getD h.txRoot,
    p.receiptRoot.getD h.receiptRoot, p.netherUsed.getD h.netherUsed, coinbase,
    p.nonce.getD h.nonce⟩

/-- A block described outright: a header patch over the zero header, the
transactions, the difficulty to mine it at if any, and a patch applied last. -/
structure BlockSpec where
  header : HeaderPatch := {}
  txs : List TxSpec := []
  mine : Option Nat := none
  after : Option HeaderPatch := none

/-- Builds the block: transactions numbered by the header; the transaction
root and the first reward's recipient as coinbase; the header patch; then a
seal when mined, else the computed hash unless the patch gave one; then the
last patch, without hashing again. -/
def BlockSpec.build (spec : BlockSpec) : Result Block := do
  let number := spec.header.number.getD 0
  let txs ← buildTxs (some number) spec.txs
  let coinbase := ((txs.find? SignedTx.isReward).map (·.tx.recipient)).getD Address.zero
  let h ← spec.header.apply { Header.zero with txRoot := Block.txRootOf txs, coinbase }
  let b : Block := ⟨h, txs⟩
  let b ← match spec.mine with
    | some bits => Mining.mineBlock b bits
    | none => pure (if spec.header.hash.isSome then b else { b with header := { h with hash := h.computeHash } })
  match spec.after with
  | some p => pure { b with header := ← p.apply b.header }
  | none => pure b

/-- The built block at a position; a negative position counts from the end. -/
def blockAt (blocks : Array Block) (i : Int) : Result Block :=
  let j := if i < 0 then blocks.size + i else i
  match blocks[j.toNat]? with
  | some b => if j < 0 then .error (.config s!"no built block {i}") else .ok b
  | none => .error (.config s!"no built block {i}")

end Devnet
end PowChain
