import PowChain.Cli.Parse
import PowChain.Node.Daemon

/-!
# The node program

The node program reads its configuration file (`config.toml` unless
`--config` names another; a missing file gives the defaults), lets
`--data-dir` override the data directory, and runs one command:

* `genesis` writes a development genesis, dated by the clock, to a file;
* `init` starts the chain in the data directory from a genesis file;
* `run` starts the node, which then serves until stopped;
* `status` prints the chain's tip, and the balance of an address if given.

`init` and `status` hold the data directory's lock while they work.  A
failure ends the program with code 1 and a report of its cause, after what
was already printed.
-/

namespace PowChain
namespace Cli

open Host

/-- Why a program run failed, as its final report shows it. -/
inductive Failure where
  | ledger (e : LedgerError)
  | note (text : String)
  | number (f : Text.IntFault)
  | io (f : IoFault)

def Failure.debug : Failure → String
  | .ledger e => e.debug
  | .note t => Text.quoteString t
  | .number f => f.debug
  | .io f => f.debug

/-- A program's machine and what it printed. -/
structure Console where
  machine : Machine
  out : String := ""

/-- A program's computation: its changes survive a failure. -/
abbrev RunM (α : Type) := ExceptT Failure (StateM Console) α

def onHost {α : Type} (x : HostM α) : RunM α := do
  let c ← get
  let (r, machine) := (x.run).run c.machine
  set { c with machine }
  match r with
  | .ok a => pure a
  | .error e => throw (.ledger e)

def ledger {α : Type} (r : Result α) : RunM α :=
  match r with
  | .ok a => pure a
  | .error e => throw (.ledger e)

def say (line : String) : RunM Unit := modify fun c => { c with out := c.out ++ line ++ "\n" }

/-- Runs `x` holding a lock, letting go of it afterwards, also on failure. -/
def holding {α : Type} (lock : DirLock) (x : RunM α) : RunM α := do
  let r ← tryCatch (do pure (Except.ok (← x))) (fun e => pure (Except.error e))
  onHost lock.release
  match r with
  | .ok a => pure a
  | .error e => throw e

/-! ## The grammar -/

def nodeProgram : Program where
  main := {
    name := "nether-node", usageName := "nether-node"
    about := "A proof-of-work account ledger with peer-to-peer chain synchronization"
    params := [
      { long := "config", short := some 'c', valueName := "CONFIG", kind := .path,
        help := "Node configuration file", default := some "config.toml" },
      { long := "data-dir", valueName := "DATA_DIR", kind := .path,
        help := "Overrides `database.path` from the configuration" },
      { long := "verbose", short := some 'v', action := .count,
        help := "More log output (-v debug, -vv trace)" },
      Param.helpFlag, Param.versionFlag]
    group := ["config", "data-dir", "verbose"] }
  commands := [
    { name := "genesis", usageName := "nether-node genesis", about := "Write a development genesis file"
      params := [
        { long := "coinbase", valueName := "COINBASE", help := "Address credited by the genesis block",
          required := true },
        { long := "alloc", action := .append, valueName := "ALLOC",
          help := "Initial balances as ADDRESS=AMOUNT" },
        { long := "difficulty", valueName := "DIFFICULTY", kind := .u32, default := some "16" },
        { long := "out", valueName := "OUT", kind := .path, default := some "genesis.json" },
        Param.helpFlag]
      group := ["coinbase", "alloc", "difficulty", "out"] },
    { name := "init", usageName := "nether-node init"
      about := "Create the chain in the data directory from a genesis file"
      params := [{ long := "genesis", valueName := "GENESIS", kind := .path, required := true },
        Param.helpFlag]
      group := ["genesis"] },
    { name := "run", usageName := "nether-node run", about := "Start the node", params := [Param.helpFlag] },
    { name := "status", usageName := "nether-node status"
      about := "Print the chain tip, and a balance if an address is given"
      params := [{ long := "address", valueName := "ADDRESS" }, Param.helpFlag]
      group := ["address"] }]
  version := "netherchain 0.2.0"

/-! ## The commands -/

/-- The last value given to an option. -/
def lastValue (g : Given) (long : String) : Option String :=
  ((g.find? (·.1 == long)).map (·.2)).bind (·.getLast?)

def allValues (g : Given) (long : String) : List String :=
  ((g.find? (·.1 == long)).map (·.2)).getD []

/-- One `ADDRESS=AMOUNT` balance. -/
def allocEntry (entry : String) : RunM (Address × UInt64) := do
  match entry.splitOn "=" with
  | addr :: rest@(_ :: _) =>
    let a ← ledger (Address.decode addr)
    match Text.parseUnsigned (Nat.pow 2 64 - 1) ("=".intercalate rest) with
    | .ok n => pure (a, n.toUInt64)
    | .error f => throw (.number f)
  | _ => throw (.note ("alloc entry '" ++ entry ++ "' must look like ADDRESS=AMOUNT"))

/-- Prints the chain's identity and tip. -/
def printChain (c : Chain) : RunM Unit := do
  let (r, _) := ((Chain.getBlock c.tip.hash).run).run c
  let tip ← ledger r
  say "NetherChain"
  say s!"  Chain id: {c.genesis.chainId}"
  say s!"  Height: {c.bestHeight}"
  say ("  Tip: " ++ Hex.encode tip.hash.bytes)
  say s!"  Difficulty: {c.difficulty}"

/-- Writes a development genesis file. -/
def writeGenesis (clock : Int) (args : Given) : RunM Unit := do
  let coinbase ← ledger (Address.decode ((lastValue args "coinbase").getD ""))
  let alloc ← (allValues args "alloc").mapM allocEntry
  let difficulty := (((lastValue args "difficulty").getD "16").toNat?.getD 16).toUInt32
  let g := { Genesis.dev coinbase difficulty alloc with genesisTime := Int64.ofInt clock }
  let out := (lastValue args "out").getD "genesis.json"
  match ← onHost (change out fun fs q => fs.writeFile q g.toJson.toUTF8) with
  | .ok () => say ("Wrote genesis to " ++ out)
  | .error e => throw (.io e)

/-- Starts the chain in the data directory. -/
def initChain (config : Node.Config) (args : Given) : RunM Unit := do
  let dir := config.databasePath
  match ← onHost (change dir FileSystem.createDirAll) with
  | .error e => throw (.io e)
  | .ok () => pure ()
  let (db, lock) ← onHost (openDataDir dir)
  holding lock do
    let g ← onHost (Genesis.load ((lastValue args "genesis").getD ""))
    let c ← ledger (Chain.bootstrap (← onHost db.load) g)
    let _ ← onHost (db.save c.store)
    say "Chain initialized"
    printChain c

/-- Prints the chain's tip, and an account if asked. -/
def showStatus (config : Node.Config) (args : Given) : RunM Unit := do
  let (db, lock) ← onHost (openDataDir config.databasePath)
  holding lock do
    let (c, _) ← onHost (Node.openChain db none)
    printChain c
    if let some text := lastValue args "address" then
      let a ← ledger (c.store.account (← ledger (Address.decode text)))
      say s!"  Balance: {a.balance} (nonce {a.nonce})"

/-- Starts the node; the answer says whether it is serving. -/
def startNode (clock : Int) (config : Node.Config) : RunM Bool := do
  let d ← onHost (Node.Daemon.init config)
  let (d, failure) ← onHost (d.run clock 0)
  match failure with
  | some e =>
    onHost d.stop
    throw (.ledger e)
  | none => pure true

/-- Runs the node program's command: whether it is left serving. -/
def runCommand (home : Option String) (clock : Int) (inv : Invocation) : RunM Bool := do
  let config ← onHost (Node.Config.load home ((lastValue inv.options "config").getD "config.toml"))
  let config := match lastValue inv.options "data-dir" with
    | some d => { config with databasePath := d }
    | none => config
  match inv.command with
  | "genesis" => writeGenesis clock inv.args; pure false
  | "init" => initChain config inv.args; pure false
  | "run" => startNode clock config
  | _ => showStatus config inv.args; pure false

/-- Runs the node program on a machine, with `home` as the home directory and
the clock reading `clock`. -/
def runNode (home : Option String) (clock : Int) (args : List String) (m : Machine) : Outcome × Machine :=
  match nodeProgram.parse args with
  | .error o => (o, m)
  | .ok inv =>
    let (r, c) := ((runCommand home clock inv).run).run { machine := m }
    match r with
    | .ok serving => ({ code := 0, stdout := c.out, serving }, c.machine)
    | .error f => ({ code := 1, stdout := c.out, stderr := "Error: " ++ f.debug ++ "\n" }, c.machine)

/-- The paths a run of the node program may read or write, beyond its
configuration file: the data directory with its lock and store files, the
genesis file and the file a genesis is written to. -/
def touchedPaths (home : Option String) (inv : Invocation) (m : Machine) : List String :=
  let configPath := (lastValue inv.options "config").getD "config.toml"
  let config := ((Node.Config.load home configPath).run.run m).1.toOption
  let dir := (lastValue inv.options "data-dir").orElse fun _ => config.map (·.databasePath)
  let dirPaths := match dir with
    | some d => [d, join d DirLock.fileName, join d "chain.db"]
    | none => []
  let genesis := (lastValue inv.args "genesis").orElse fun _ => config.bind (·.genesisPath)
  configPath :: dirPaths ++ genesis.toList ++ (lastValue inv.args "out").toList

end Cli
end PowChain
