import PowChain.Node.Config
import PowChain.Devnet.View

/-!
# Views of node settings

Durations show as `[seconds, nanoseconds]`; an absent setting as `null`.
-/

namespace PowChain
namespace View

open Json

def duration (d : Duration) : Doc := .arr [nat d.secs, nat d.nanos]

def option {α : Type} (f : α → Doc) : Option α → Doc
  | some a => f a
  | none => .null

def syncSettings (s : Sync.Settings) : Doc :=
  .obj [("is_root", .bool s.isRoot), ("sync_mode", .str s.syncMode.name),
    ("mining_enabled", .bool s.miningEnabled), ("miner_address", option address s.minerAddress),
    ("min_pending", nat s.minPending), ("max_block_transactions", nat s.maxBlockTransactions),
    ("mining_threads", nat s.miningThreads), ("mining_timeout", option duration s.miningTimeout)]

/-- A configuration with the sync settings it gives. -/
def config (c : Node.Config) : Result Doc := do
  let sync ← c.syncSettings
  pure (.obj [("listen_addr", .str c.network.listenAddr),
    ("bootstrap_peers", list .str c.network.bootstrapPeers), ("is_root", .bool c.network.isRoot),
    ("sync_mode", .str c.network.syncMode.name), ("max_peers", nat c.network.maxPeers),
    ("io_timeout", duration c.network.ioTimeout), ("database_path", .str c.databasePath),
    ("miner_enabled", .bool c.miner.enabled), ("beneficiary_address", .str c.miner.beneficiaryAddress),
    ("threads", nat c.miner.threads), ("timeout", option duration c.miner.timeout),
    ("min_pending", nat c.miner.minPending), ("genesis_path", option .str c.genesisPath),
    ("sync", syncSettings sync)])

end View
end PowChain
