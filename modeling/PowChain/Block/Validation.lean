import PowChain.Tx.Validation
import PowChain.Mining.Target
import PowChain.Block.Basic

/-!
# Checks on a block

`validateNext` checks that a header can follow the tip: its parent, then a
non-zero hash, then its number.  `validateBody` checks a sealed block on its
own: the recorded hash, the proof of work, a non-empty body, the transaction
root, no transaction twice, exactly one well-formed reward, and the size of
every transaction, in that order.

The reward of a block is the base reward, 100, plus `fee * feePrice` of every
transaction that is not a reward.
-/

namespace PowChain

/-- The hash and length of the canonical chain; the length counts block 0. -/
structure ChainTip where
  hash : Digest
  length : UInt64

namespace ChainTip

/-- The number the next block must carry. -/
def nextNumber (t : ChainTip) : UInt64 := t.length

end ChainTip

namespace Block

/-- The base reward of a block. -/
def baseReward : Nat := 100

/-- The reward a producer earns for some transactions. -/
def reward (txs : List SignedTx) : Result UInt64 := do
  let fees ← (txs.filter (!·.isReward)).foldlM (fun (acc : Nat) s => do
    let used ← s.tx.netherUsed
    let t := acc + used.toNat
    if t > Transaction.wordMax then throw (.invalidBlock "Fee total overflows") else pure t) 0
  let total := baseReward + fees
  if total > Transaction.wordMax then throw (.invalidBlock "Reward overflows")
  pure total.toUInt64

end Block

/-- Checks that `h` can follow `tip`: parent, then a non-zero hash, then the
number. -/
def validateNext (tip : ChainTip) (h : Header) : Result Unit := do
  if h.parentHash != tip.hash then throw .invalidParent
  if h.hash.isZero then throw .invalidHash
  if h.number != tip.nextNumber then throw (.invalidNumber tip.nextNumber.toNat h.number.toNat)

namespace Block

/-- The first transaction identity that occurs twice. -/
def firstRepeat (hashes : List Digest) : Option Digest :=
  let rec go (seen : List Digest) : List Digest → Option Digest
    | [] => none
    | h :: rest => if seen.contains h then some h else go (h :: seen) rest
  go [] hashes

def validateNoDuplicates (b : Block) : Result Unit :=
  match firstRepeat (b.transactions.map SignedTx.hash) with
  | some h => .error (.invalidBlock s!"Transaction {h.toHex} appears twice in block")
  | none => .ok ()

/-- Exactly one reward, from the zero address to the coinbase, numbered as
the block, worth the block's reward. -/
def validateReward (b : Block) : Result Unit := do
  match b.transactions.filter SignedTx.isReward with
  | [] => throw .invalidReward
  | [r] =>
    let t := r.tx
    if t.nonce != b.header.number || !t.sender.isZero || t.recipient != b.header.coinbase then
      throw .invalidReward
    if t.value != (← reward b.transactions) then throw .invalidReward
  | _ => throw (.invalidBlock "Block contains more than one reward")

/-- The checks a sealed block must pass on its own. -/
def validateBody (b : Block) (difficulty : Nat) : Result Unit := do
  if b.header.computeHash != b.header.hash then throw .invalidHash
  if !Target.meets b.header.hash difficulty then throw .invalidProofOfWork
  if b.transactions.isEmpty then throw .emptyBlock
  let expected := txRootOf b.transactions
  if expected != b.header.txRoot then
    throw (.invalidBlock s!"Transaction root mismatch. Expected {expected.toHex}, but got {b.header.txRoot.toHex}.")
  b.validateNoDuplicates
  b.validateReward
  b.transactions.forM fun s => s.validateSize

end Block
end PowChain
