import PowChain.Toml.Document
import PowChain.Toml.Decode
import PowChain.Sync.Settings

/-!
# Node configuration

A node is configured by a TOML document with four tables, each optional, as
are all their keys:

* `[network]`: `listen_host` (`127.0.0.1`), `p2p_port` (3000),
  `bootstrap_peers` (none), `is_root` (false), `sync_mode` (`default`, one of
  `default`, `account`, `full`, exact case), `max_peers` (64), `io_timeout`
  (a duration, `10s`);
* `[database]`: `path` (`.netherchain` in the home directory, or `./data`
  without one);
* `[miner]`: `enabled` (false), `beneficiary_address` (empty), `threads` (1),
  `timeout` (a duration, none), `min_pending` (2);
* `[genesis]`: `path` (none).

After reading, the settings are checked in this order: a database path, a
listen host, at least one peer, at least one mining thread, a readable
beneficiary address if one is given, and a beneficiary if mining is enabled.
-/

namespace PowChain
namespace Node

open Toml

structure NetworkSettings where
  listenHost : String := "127.0.0.1"
  port : Nat := 3000
  bootstrapPeers : List String := []
  isRoot : Bool := false
  syncMode : Net.SyncMode := .default
  maxPeers : Nat := 64
  ioTimeout : Duration := ⟨10, 0⟩

/-- The address announced to peers. -/
def NetworkSettings.listenAddr (n : NetworkSettings) : String :=
  n.listenHost ++ ":" ++ toString n.port

structure MinerSettings where
  enabled : Bool := false
  beneficiaryAddress : String := ""
  threads : Nat := 1
  timeout : Option Duration := none
  minPending : Nat := 2

/-- The beneficiary, none when left empty. -/
def MinerSettings.beneficiary (m : MinerSettings) : Result (Option Address) :=
  if m.beneficiaryAddress.isEmpty then pure none
  else some <$> Address.decode m.beneficiaryAddress

/-- A node's configuration. -/
structure Config where
  network : NetworkSettings := {}
  databasePath : String
  miner : MinerSettings := {}
  genesisPath : Option String := none

namespace Config

/-- The data directory used when none is configured. -/
def defaultDataDir (home : Option String) : String :=
  match home with
  | some h => if h.endsWith "/" then h ++ ".netherchain" else h ++ "/.netherchain"
  | none => "./data"

/-- The largest machine-word count. -/
def wordMax : Nat := Nat.pow 2 64 - 1

def duration (it : Item) : Decoded Duration := do
  let text ← Decode.string "a string" it
  match Duration.parse text with
  | .ok d => pure d
  | .error .carryOverflow => throw { message := Duration.Fault.carryOverflow.message, halts := true }
  | .error e => throw { message := e.message, span := it.span? }

def syncMode : Item → Decoded Net.SyncMode :=
  Decode.choice [("default", .default), ("account", .account), ("full", .full)]

def networkFields : List (Decode.Field NetworkSettings) :=
  [⟨"listen_host", fun n it => do pure { n with listenHost := ← Decode.string "a string" it }⟩,
   ⟨"p2p_port", fun n it => do pure { n with port := ← Decode.natUpTo "u16" 65535 it }⟩,
   ⟨"bootstrap_peers", fun n it => do
      pure { n with bootstrapPeers := ← Decode.list (Decode.string "a string") it }⟩,
   ⟨"is_root", fun n it => do pure { n with isRoot := ← Decode.bool it }⟩,
   ⟨"sync_mode", fun n it => do pure { n with syncMode := ← syncMode it }⟩,
   ⟨"max_peers", fun n it => do pure { n with maxPeers := ← Decode.natUpTo "usize" wordMax it }⟩,
   ⟨"io_timeout", fun n it => do pure { n with ioTimeout := ← duration it }⟩]

def minerFields : List (Decode.Field MinerSettings) :=
  [⟨"enabled", fun m it => do pure { m with enabled := ← Decode.bool it }⟩,
   ⟨"beneficiary_address", fun m it => do
      pure { m with beneficiaryAddress := ← Decode.string "a string" it }⟩,
   ⟨"threads", fun m it => do pure { m with threads := ← Decode.natUpTo "usize" wordMax it }⟩,
   ⟨"timeout", fun m it => do pure { m with timeout := some (← duration it) }⟩,
   ⟨"min_pending", fun m it => do pure { m with minPending := ← Decode.natUpTo "usize" wordMax it }⟩]

def fields : List (Decode.Field Config) :=
  [⟨"network", fun c it => do
      pure { c with network := ← Decode.record "NetworkConfig" networkFields {} it }⟩,
   ⟨"database", fun c it => do
      let path ← Decode.record "DatabaseConfig"
        [⟨"path", fun _ it => Decode.string "path string" it⟩] c.databasePath it
      pure { c with databasePath := path }⟩,
   ⟨"miner", fun c it => do
      pure { c with miner := ← Decode.record "MinerConfig" minerFields {} it }⟩,
   ⟨"genesis", fun c it => do
      let path ← Decode.record "GenesisConfig"
        [⟨"path", fun _ it => some <$> Decode.string "path string" it⟩] none it
      pure { c with genesisPath := path }⟩]

/-- The configuration with every default. -/
def defaults (home : Option String) : Config := { databasePath := defaultDataDir home }

/-- Checks the settings, reporting the first problem. -/
def validate (c : Config) : Result Unit := do
  if c.databasePath.isEmpty then throw (.config "database.path must be set")
  if c.network.listenHost.isEmpty then throw (.config "network.listen_host must be set")
  if c.network.maxPeers == 0 then throw (.config "network.max_peers must be at least 1")
  if c.miner.threads == 0 then throw (.config "miner.threads must be at least 1")
  let beneficiary ← c.miner.beneficiary.mapError fun e =>
    .config ("miner.beneficiary_address: " ++ e.message)
  if c.miner.enabled && beneficiary.isNone then
    throw (.config "miner.beneficiary_address must be set when mining is enabled")

/-- Reads and checks a configuration document; `home` is the home directory,
if there is one. -/
def ofToml (home : Option String) (text : String) : Result Config := do
  let root ← (Toml.parse text).mapError fun f => .config (f.render text)
  let c ← (Decode.record "Config" fields (defaults home) (.table root false false none)).mapError
    fun f => if f.halts then .durationOverflow else .config (f.render text)
  c.validate
  pure c

/-- The sync settings the configuration gives. -/
def syncSettings (c : Config) : Result Sync.Settings := do
  pure {
    isRoot := c.network.isRoot
    syncMode := c.network.syncMode
    miningEnabled := c.miner.enabled
    minerAddress := ← c.miner.beneficiary
    minPending := c.miner.minPending
    miningThreads := c.miner.threads
    miningTimeout := c.miner.timeout }

end Config
end Node
end PowChain
