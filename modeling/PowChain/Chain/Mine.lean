import PowChain.Chain.Basic
import PowChain.Mining.Search

/-!
# Mining on the tip

A mined block holds the chosen transactions and, last, the reward to the
coinbase for the block's number; its header is prepared on the tip and
sealed at the chain's difficulty by the mining workers.  The clock is read
twice: once to date the reward, and once, later, to date the block.
-/

namespace PowChain
namespace Chain

/-- Mines a block of `txs` and their reward to `coinbase` on the tip with
`threads` workers, worker `j` seeing the world as `watch j`.  The reward is
dated by the clock reading `rewardTime` and the block by the reading `now`
(milliseconds). -/
def mineBlock (rewardTime now : Int) (txs : List SignedTx) (coinbase : Address) (threads : UInt64)
    (watch : Nat → Mining.Watch) : ChainM Block := do
  let c ← get
  let number := c.tip.nextNumber
  let reward := SignedTx.reward coinbase (← Block.reward txs) number (Int64.ofInt rewardTime)
  let b ← prepareBlock now (txs ++ [reward]) coinbase
  Mining.mineBlockWith b c.difficulty threads watch

end Chain
end PowChain
