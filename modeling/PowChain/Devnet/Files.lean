import PowChain.Devnet.Session
import PowChain.Node.Daemon
import PowChain.Node.View

/-!
# A console session over files

A file session works in one directory of a machine, where relative paths
start.  Besides plain file steps it keeps named slots, each of which may hold
a data directory lock, an open store file, a chain (with its pool) and a
node.  Dropping a slot lets go of what it holds; a lock and a node release
their lock files.  Taking something into a slot that already holds one
replaces it only once the new one is had.

A chain in a slot lives in the store file it was opened on: each chain step
reads the store from the file and writes it back afterwards.  The blocks
that chain steps build go into one list, whichever slot built them.

Answers show this process's id as `<pid>`, in lock messages and as the text
of a lock file that holds it.
-/

namespace PowChain
namespace Devnet

open Host

/-- What a slot holds. -/
structure Slot where
  lock : Option DirLock := none
  db : Option Database := none
  /-- A chain session and the store file it lives in. -/
  chain : Option (Session × Database) := none
  node : Option Node.Daemon := none

/-- One step of a file session. -/
inductive FileStep where
  | write (path : String) (bytes : ByteArray)
  | mkdir (path : String)
  | remove (path : String)
  | isPresent (path : String)
  | read (path : String)
  | list (path : String)
  | lock (slot dir : String)
  | unlock (slot : String)
  | openDataDir (slot dir : String)
  | openStore (slot path : String)
  | genesisLoad (path : String)
  | configLoad (path : String)
  | openChain (slot : String) (genesis : Option String)
  | bootstrap (slot : String) (g : Genesis)
  | chain (slot : String) (step : Step)
  | nodeInit (slot : String) (config : String)
  | nodeRun (slot : String) (forMs : Option Nat)
  | node (slot : String) (addr : Option String)
  | drop (slot : String)

/-- A file session. -/
structure Desk where
  machine : Machine
  /-- The directory relative paths start from, as shown. -/
  workDir : String
  /-- The home directory the default configuration refers to. -/
  home : Option String
  /-- The clock that mined blocks are dated by, in milliseconds. -/
  clock : Int
  slots : List (String × Slot) := []
  /-- The built blocks, one list for the chains of every slot. -/
  blocks : Array Block := #[]

/-- Why a step fails: the ledger's error, or a slot that lacks what the step
works on. -/
inductive DeskError where
  | ledger (e : LedgerError)
  /-- The slot holds no `what` (a chain, a store, a node). -/
  | vacant (what slot : String)

/-- A step's computation: its changes survive a failure. -/
abbrev DeskM (α : Type) := ExceptT DeskError (StateM Desk) α

namespace Desk

/-- A fresh session over a machine whose working directory is `workDir`. -/
def create (m : Machine) (workDir : String) (home : Option String) (clock : Int) : Desk :=
  { machine := { m with cwd := resolve [] workDir }, workDir, home, clock }

/-- The path a step names, as shown. -/
def path (p : String) : DeskM String := do pure (join (← get).workDir p)

/-- A ledger result as a step's. -/
def ofResult {α : Type} (r : Result α) : DeskM α :=
  match r with
  | .ok a => pure a
  | .error e => throw (.ledger e)

/-- Runs a machine computation. -/
def onHost {α : Type} (x : HostM α) : DeskM α := do
  let d ← get
  let (r, machine) := (x.run).run d.machine
  set { d with machine }
  ofResult r

def slot (name : String) : DeskM Slot := do
  pure ((Toml.lookup name (← get).slots).getD {})

def setSlot (name : String) (s : Slot) : DeskM Unit :=
  modify fun d =>
    if (Toml.lookup name d.slots).isSome then { d with slots := Toml.replace name s d.slots }
    else { d with slots := d.slots ++ [(name, s)] }

/-- A plain file-system step on the session's machine: whether it worked. -/
def fileStep (p : String) (f : FileSystem → PathParts → Except IoFault FileSystem) : DeskM Bool := do
  let d ← get
  let q := d.machine.locate (← path p)
  match f d.machine.fs q with
  | .ok fs => set { d with machine := { d.machine with fs } }; pure true
  | .error _ => pure false

/-- Removes a file, or a directory with all it holds. -/
def removeTree (fs : FileSystem) (q : PathParts) : Except IoFault FileSystem :=
  match fs.entry? q with
  | some (.file _ _) => fs.removeFile q
  | some .dir =>
    if q.isEmpty then .error .isADirectory
    else .ok (fs.eraseWhere fun p => p.take q.length == q)
  | none => .error .notFound

/-- The text shown for a file's content: `<pid>` stands for this process's id. -/
def shownText (pid : Nat) (t : String) : String :=
  if t == s!"{pid}\n" then "<pid>\n" else t

/-- The view of a ledger failure, with this process's id shown as `<pid>`. -/
def shownError (pid : Nat) (e : LedgerError) : Json.Doc :=
  match e with
  | .storeLocked m =>
    View.error (.storeLocked (m.replace s!"running process {pid}" "running process <pid>"))
  | e => View.error e

/-- The view of a step's failure; a vacant slot is a bad request. -/
def failureView (pid : Nat) : DeskError → Json.Doc
  | .ledger e => shownError pid e
  | .vacant what slot => .obj [("error", .str "BadInput"), ("message", .str s!"no {what} in slot {slot}")]

/-- A chain's store file brought into the chain, a chain computation, and the
store written back. -/
def onChainSlot {α : Type} (name : String) (x : Session × Database → DeskM (α × Session)) : DeskM α := do
  let sl ← slot name
  let some (sess, db) := sl.chain | throw (.vacant "chain" name)
  let store ← onHost db.load
  let sess := { sess with chain := { sess.chain with store }, blocks := (← get).blocks }
  let (a, sess) ← x (sess, db)
  let db ← onHost (db.save sess.chain.store)
  let sl ← slot name
  -- the slot's store, when it is the chain's, knows the schema read too
  let same := sl.db.any fun d => d.path == db.path && d.node == db.node
  setSlot name { sl with chain := some (sess, db), db := if same then some db else sl.db }
  modify fun d => { d with blocks := sess.blocks }
  pure a

/-- The view of a node. -/
def nodeView (n : Node.Daemon) : Json.Doc :=
  let c := n.engine.chain
  .obj [("state", .str n.phase.name), ("tip", View.tip c), ("chain_id", View.word c.genesis.chainId),
    ("peers", View.list .str n.engine.peers.addrs), ("pending", View.nat n.engine.pool.size),
    ("listen_addr", .str n.config.network.listenAddr)]

def node (name : String) : DeskM Node.Daemon := do
  match (← slot name).node with
  | some n => pure n
  | none => throw (.vacant "node" name)

/-- Puts a chain into a slot with a new pool. -/
def keepChain (name : String) (c : Chain) (db : Database) : DeskM Json.Doc := do
  setSlot name { (← slot name) with chain := some ({ chain := c }, db), db := some db }
  pure (View.tip c)

def store (name : String) : DeskM Database := do
  match (← slot name).db with
  | some db => pure db
  | none => throw (.vacant "store" name)

/-- What a step answers. -/
def answer : FileStep → DeskM Json.Doc
  | .write p b => do
    let ok ← fileStep p fun fs q => do (← fs.createDirAll q.dropLast).writeFile q b
    pure (.bool ok)
  | .mkdir p => do pure (.bool (← fileStep p FileSystem.createDirAll))
  | .remove p => do pure (.bool (← fileStep p removeTree))
  | .isPresent p => do
    let q := (← get).machine.locate (← path p)
    pure (.bool ((← get).machine.fs.exists? q))
  | .read p => do
    let m := (← get).machine
    match m.fs.readText (m.locate (← path p)) with
    | .ok t => pure (.str (shownText m.pid t))
    | .error _ => pure .null
  | .list p => do
    let m := (← get).machine
    pure (View.list .str ((m.fs.list (m.locate (← path p))).toOption.getD []))
  | .lock name dir => do
    let l ← onHost (DirLock.acquire (← path dir))
    let sl ← slot name
    if let some old := sl.lock then onHost old.release
    setSlot name { (← slot name) with lock := some l }
    pure (.obj [("path", .str l.path)])
  | .unlock name => do
    let sl ← slot name
    match sl.lock with
    | some l =>
      onHost l.release
      setSlot name { sl with lock := none }
      pure (.bool true)
    | none => pure (.bool false)
  | .openDataDir name dir => do
    let (db, l) ← onHost (openDataDir (← path dir))
    let sl ← slot name
    if let some old := sl.lock then onHost old.release
    setSlot name { (← slot name) with lock := some l, db := some db }
    pure View.done
  | .openStore name p => do
    let db ← onHost (Database.openFile (← path p))
    setSlot name { (← slot name) with db := some db }
    pure View.done
  | .genesisLoad p => do
    let g ← onHost (Genesis.load (← path p))
    ofResult (View.genesis g)
  | .configLoad p => do
    let c ← onHost (Node.Config.load (← get).home (← path p))
    ofResult (View.config c)
  | .openChain name g => do
    let db ← store name
    let g ← match g with
      | some p => some <$> path p
      | none => pure none
    let (c, db) ← onHost (Node.openChain db g)
    keepChain name c db
  | .bootstrap name g => do
    let db ← store name
    let s ← onHost db.load
    let c ← ofResult (Chain.bootstrap s g)
    let db ← onHost (db.save c.store)
    keepChain name c db
  | .chain name st => onChainSlot name fun (sess, _) => do
    let g := sess.chain.genesis
    pure (Session.step g st sess)
  | .nodeInit name text => do
    let config ← ofResult (Node.Config.ofToml (← get).home text)
    let n ← onHost (Node.Daemon.init config)
    let sl ← slot name
    if let some old := sl.node then onHost old.stop
    setSlot name { (← slot name) with node := some n }
    pure (nodeView n)
  | .nodeRun name forMs => do
    let n ← node name
    let (n, failure) ← onHost (n.run (← get).clock (forMs.getD 0))
    setSlot name { (← slot name) with node := some n }
    let pid := (← get).machine.pid
    let result := match failure with
      | some e => shownError pid e
      | none => .obj [("running", .bool true)]
    pure (.obj [("result", result), ("node", nodeView n)])
  | .node name addr => do
    let n ← node name
    match addr with
    | none => pure (nodeView n)
    | some a =>
      let acct ← ofResult (do n.engine.chain.store.account (← Address.decode a))
      match nodeView n with
      | .obj fields => pure (.obj (fields ++ [("account", View.account acct)]))
      | v => pure v
  | .drop name => do
    let sl ← slot name
    if let some l := sl.lock then onHost l.release
    if let some n := sl.node then onHost n.stop
    setSlot name {}
    let held := [sl.lock.isSome, sl.db.isSome, sl.chain.isSome, sl.node.isSome]
    pure (View.nat (held.filter id).length)

/-- The open databases the slots hold. -/
def openDatabases (d : Desk) : List Database :=
  d.slots.flatMap fun (_, s) =>
    s.db.toList ++ (s.chain.map (·.2)).toList ++ (s.node.map (·.db)).toList

/-- Closes the databases `before` held that no slot holds any more; the last
one open on a file closes it. -/
def closeDropped (before : List Database) (d : Desk) : Desk :=
  let after := d.openDatabases
  let dropped := before.filter fun b => !after.any (·.id == b.id)
  let dropped := dropped.foldl (fun acc b => if acc.any (·.id == b.id) then acc else acc ++ [b]) []
  dropped.foldl (fun d b =>
    if after.any (·.node == b.node) then d
    else { d with machine := ((b.close.run).run d.machine).2 }) d

/-- Runs one step: its answer, or its failure. -/
def step (st : FileStep) (d : Desk) : Json.Doc × Desk :=
  let before := d.openDatabases
  let (r, d) := ((answer st).run).run d
  let d := closeDropped before d
  match r with
  | .ok doc => (doc, d)
  | .error e => (failureView d.machine.pid e, d)

/-- Runs steps in order, collecting their answers. -/
def run (steps : List FileStep) (d : Desk) : List Json.Doc × Desk :=
  steps.foldl (fun (acc, d) st => let (doc, d) := step st d; (acc ++ [doc], d)) ([], d)

end Desk
end Devnet
end PowChain
