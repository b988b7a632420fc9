import PowChain.Host.Machine
import PowChain.Host.Socket
import PowChain.Node.Config
import PowChain.Sync.Engine
import PowChain.Genesis.Json

/-!
# A node on a machine

A node keeps its chain in a data directory: it makes the directory, takes
its lock, opens its store file, and resumes the chain there or, on first
use, starts it from the genesis file the configuration names.  The peers it
knew are read back from the store.  A node that fails to start lets go of
its lock.

Running a node binds its listen address, greets the bootstrap peers (every
one it cannot reach is dropped), and from then on is ready: every mining
tick, two seconds apart and the first at once, a mining node that is not a
root may start a run.
-/

namespace PowChain

open Host

/-- Reads a genesis file. -/
def Genesis.load (path : String) : HostM Genesis := do
  match ← readText? path with
  | .error e => throw (.config s!"Failed to read genesis {path}: {e.message}")
  | .ok t => Genesis.ofJson t

namespace Node

/-- Reads a configuration file; a missing one gives the checked defaults. -/
def Config.load (home : Option String) (path : String) : HostM Config := do
  match ← readText? path with
  | .ok t => Config.ofToml home t
  | .error .notFound =>
    let c := Config.defaults home
    c.validate
    pure c
  | .error e => throw (.config s!"Failed to read {path}: {e.message}")

/-- The chain in a store file: resumed if the store has one, else started
from the genesis file at `genesisPath`; and the open file as it is then. -/
def openChain (db : Database) (genesisPath : Option String) : HostM (Chain × Database) := do
  let s ← db.load
  if ← Chain.isInitialized s then pure (← Chain.resume s, ← db.save s)
  else
    let some path := genesisPath
      | throw (.config "genesis.path is required to initialize a new data directory")
    let g ← Genesis.load path
    let c ← Chain.bootstrap s g
    let db ← db.save c.store
    pure (c, db)

/-- How far a node has come. -/
inductive Phase where
  | booting
  | syncing
  | ready
  | degraded
  deriving DecidableEq, Repr

def Phase.name : Phase → String
  | .booting => "Booting"
  | .syncing => "Syncing"
  | .ready => "Ready"
  | .degraded => "Degraded"

/-- A node with its data directory. -/
structure Daemon where
  config : Config
  /-- The node as the network sees it, named by its listen address. -/
  engine : Sync.Node
  phase : Phase := .booting
  lock : DirLock
  db : Database

namespace Daemon

/-- The time between mining ticks, in milliseconds. -/
def tickMs : Nat := 2000

/-- Starts a node from its configuration. -/
def init (config : Config) : HostM Daemon := do
  createDirAll config.databasePath
  let (db, lock) ← openDataDir config.databasePath
  tryCatch
    (do
      let (chain, db) ← openChain db config.genesisPath
      let peers ← Net.PeerSet.load chain.store config.network.maxPeers
      let settings ← config.syncSettings
      let engine : Sync.Node := { name := config.network.listenAddr, chain, peers, settings }
      pure { config, engine, lock, db })
    (fun e => do
      lock.release
      throw e)

/-- Lets go of the node's data directory. -/
def stop (d : Daemon) : HostM Unit := d.lock.release

/-- The steps of a run after binding: greeting the bootstrap peers, then the
mining ticks. -/
def session (d : Daemon) (ticks : Nat) : Sync.NetM Unit := do
  let me := d.engine.name
  Sync.Network.start me d.config.network.bootstrapPeers
  for _ in List.range ticks do
    if d.config.miner.enabled && !d.config.network.isRoot then
      let _ ← Sync.Network.maybeMine me
    Sync.Network.settle

/-- Runs the node for `forMs` milliseconds on a clock reading `clock`; the
node as it is then, and the failure that ended the run early, if any. -/
def run (d : Daemon) (clock : Int) (forMs : Nat) : HostM (Daemon × Option LedgerError) := do
  let addr := d.config.network.listenAddr
  if let .error e := Host.bind addr then
    return (d, some (.network s!"Failed to bind {addr}: {e}"))
  let engine := { d.engine with chain := { d.engine.chain with store := ← d.db.load } }
  let net : Sync.Network := { nodes := [engine], clock }
  let ticks := 1 + forMs / tickMs
  let (r, net) := ((d.session ticks).run).run net
  let engine := (net.nodes.find? (·.name == engine.name)).getD engine
  let db ← d.db.save engine.chain.store
  match r with
  | .ok () => pure ({ d with engine, phase := .ready, db }, none)
  | .error e => pure ({ d with engine, phase := .syncing, db }, some e)

end Daemon
end Node
end PowChain
