import PowChain.Net.Peers
import PowChain.Text.Duration

/-!
# Sync settings

What a node does with the network: whether it is a root (relaying rather than
mining on gossip), how much history it pulls, and whether and how it mines.
-/

namespace PowChain
namespace Sync

/-- How a node takes part in the network. -/
structure Settings where
  /-- Root nodes relay transactions and blocks instead of mining on gossip. -/
  isRoot : Bool := false
  syncMode : Net.SyncMode := .default
  miningEnabled : Bool := false
  minerAddress : Option Address := none
  /-- Pending transactions needed before gossip starts mining. -/
  minPending : Nat := 2
  maxBlockTransactions : Nat := 1000
  miningThreads : Nat := 1
  miningTimeout : Option Duration := none

end Sync
end PowChain
