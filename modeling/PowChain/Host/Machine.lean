import PowChain.Host.FileSystem
import PowChain.PageFile.Wal
import PowChain.Store.Basic
import PowChain.Text.Space

/-!
# The machine a program runs on

A machine is a file system seen from a working directory by a process with
an id, together with the other processes that are running.  A program's
computations on it keep their changes when they fail, as writes to disk do.

A data directory is guarded by a lock file, `LOCK`, that holds the id of
the process owning it followed by a newline.  Taking the lock makes the
directory and creates the file, which must be new.  A lock file left behind
is stale unless its text, trimmed, is the id of a running process; a stale
one is removed and created afresh, once.  Letting go of a lock removes the
file, whatever became of it.

The store of a data directory lives in its database file `chain.db`.  The
file is opened, or created, where its directory exists.  An open database
holds on to the file's node: it reads the node's bytes at every step and
writes back what its store committed, and it refuses to write once the
path no longer leads to that node.
-/

namespace PowChain
namespace Host

/-- A process's view of a machine. -/
structure Machine where
  fs : FileSystem := {}
  /-- The working directory. -/
  cwd : PathParts := []
  /-- This process's id. -/
  pid : Nat
  /-- The ids of other running processes. -/
  running : List Nat := [1]
  /-- The number the next open database is known by. -/
  nextConnection : Nat := 1

/-- A computation on a machine: its changes survive a failure. -/
abbrev HostM (α : Type) := ExceptT LedgerError (StateM Machine) α

namespace Machine

/-- The absolute parts of a path text. -/
def locate (m : Machine) (p : String) : PathParts := resolve m.cwd p

/-- A machine working in `dir`, made afresh, holding `files` (paths from
`dir`, their directories made as needed); a file that cannot be written is
left out. -/
def prepare (pid : Nat) (dir : String) (files : List (String × ByteArray)) : Machine :=
  let cwd := resolve [] dir
  let fs := ((FileSystem.createDirAll {} cwd).toOption).getD {}
  let fs := files.foldl (fun fs (p, b) =>
    let q := resolve cwd p
    match fs.createDirAll q.dropLast >>= fun fs => fs.writeFile q b with
    | .ok fs => fs
    | .error _ => fs) fs
  { fs, cwd, pid }

end Machine

/-- Runs a file-system step at a path, turning a fault into a ledger error
through `wrap`. -/
def onFiles {α : Type} (wrap : IoFault → LedgerError) (p : String)
    (f : FileSystem → PathParts → Except IoFault (α × FileSystem)) : HostM α := do
  let m ← get
  match f m.fs (m.locate p) with
  | .ok (a, fs) => set { m with fs }; pure a
  | .error e => throw (wrap e)

def ioError (e : IoFault) : LedgerError := .io e.message

/-- A file-system change at a path; a fault leaves the machine as it was and
is answered. -/
def change (p : String) (f : FileSystem → PathParts → Except IoFault FileSystem) :
    HostM (Except IoFault Unit) := do
  let m ← get
  match f m.fs (m.locate p) with
  | .ok fs => set { m with fs }; pure (.ok ())
  | .error e => pure (.error e)

def createDirAll (p : String) : HostM Unit :=
  onFiles ioError p fun fs q => do pure ((), ← fs.createDirAll q)

/-- The text of a file, or the fault that kept it from being read. -/
def readText? (p : String) : HostM (Except IoFault String) := do
  let m ← get
  pure (m.fs.readText (m.locate p))

/-- Whether something exists at a path. -/
def pathExists (p : String) : HostM Bool := do
  let m ← get
  pure (m.fs.exists? (m.locate p))

/-! ## Process ids -/

/-- The unsigned 32-bit number a text spells: decimal digits, a leading `+`
allowed. -/
def parseU32? (t : String) : Option Nat :=
  let body := if t.startsWith "+" && t.length > 1 then t.drop 1 else t.toSlice
  let cs := body.toString.toList
  if cs.isEmpty || !cs.all Char.isDigit then none
  else
    let n := cs.foldl (fun acc c => acc * 10 + (c.toNat - 48)) 0
    if n < Nat.pow 2 32 then some n else none

/-- The process a lock file names, if it is running. -/
def liveHolder (m : Machine) (p : PathParts) : Option Nat :=
  match m.fs.readText p with
  | .error _ => none
  | .ok t =>
    match parseU32? (Text.trim t) with
    | some pid => if pid == m.pid || m.running.contains pid then some pid else none
    | none => none

/-! ## Data directory locks -/

/-- A held lock: the path of its file as shown. -/
structure DirLock where
  path : String
  deriving DecidableEq, Repr

namespace DirLock

def fileName : String := "LOCK"

/-- Creates a new lock file holding this process's id. -/
def create (path : String) : HostM (Except IoFault DirLock) := do
  let m ← get
  match m.fs.createNew (m.locate path) (s!"{m.pid}\n").toUTF8 with
  | .ok fs => set { m with fs }; pure (.ok ⟨path⟩)
  | .error e => pure (.error e)

/-- Takes the lock of a data directory, making the directory first. -/
def acquire (dir : String) : HostM DirLock := do
  createDirAll dir
  let path := join dir fileName
  match ← create path with
  | .ok l => pure l
  | .error .alreadyExists =>
    let m ← get
    if let some pid := liveHolder m (m.locate path) then
      throw (.storeLocked s!"{path} is held by running process {pid}")
    onFiles ioError path fun fs q => do pure ((), ← fs.removeFile q)
    match ← create path with
    | .ok l => pure l
    | .error e => throw (.storeLocked s!"{path}: {e.message}")
  | .error e => throw (ioError e)

/-- Lets go of the lock, removing its file if it can. -/
def release (l : DirLock) : HostM Unit := do
  let m ← get
  match m.fs.removeFile (m.locate l.path) with
  | .ok fs => set { m with fs }
  | .error _ => pure ()

end DirLock

/-! ## Store files -/

/-- An open store file. -/
structure Database where
  /-- The path it was opened at, as shown. -/
  path : String
  /-- Where the file is. -/
  file : PathParts
  /-- The file's node, which the open database goes on reading and writing
  even when its path goes elsewhere. -/
  node : Nat
  /-- The schema the connection last read. -/
  cache : StoreFile.SchemaCache := {}
  /-- The number this open database is known by. -/
  id : Nat := 0
  /-- Whether the database is in write-ahead mode. -/
  logged : Bool := false
  /-- The counts of changes and the last rowid the connection keeps. -/
  session : Sql.Session := {}
  deriving DecidableEq

namespace Database

/-- Removes a file if it is there. -/
def removeIfThere (q : PathParts) : HostM Unit :=
  modify fun m => match m.fs.removeFile q with
    | .ok fs => { m with fs }
    | .error _ => m

/-- What the first read of a database does beside it.  A hot journal (one
whose first byte is not zero) is played back and deleted, and any journal
of an empty database is deleted.  Then the database opens in write-ahead
mode when its header says so or a log lies beside it: the log's committed
frames are put in place, the log is left empty and the shared index made.
A log beside an empty database is deleted instead.  Whether the database is
in write-ahead mode. -/
def recover (path : String) (node : Nat) : HostM Bool := do
  let m ← get
  let db := (m.fs.nodeBytes node).getD ByteArray.empty
  let journal := m.locate (path ++ "-journal")
  if m.fs.isFile journal then
    let j := (m.fs.readFile journal).toOption.getD ByteArray.empty
    if db.size == 0 then removeIfThere journal
    else if j.size > 0 && Bytes.getD j 0 != 0 then
      modify fun m => { m with fs := m.fs.setNodeBytes node (PageFile.playJournal db j) }
      removeIfThere journal
  let m ← get
  let db := (m.fs.nodeBytes node).getD ByteArray.empty
  let log := m.locate (path ++ "-wal")
  let shared := m.locate (path ++ "-shm")
  let hasLog := m.fs.isFile log
  if db.size == 0 then
    if hasLog then removeIfThere log
    return false
  let headerSays := Bytes.take db 16 == PageFile.magic && (Bytes.getD db 19).toNat == 2
  if !(hasLog || headerSays) then return false
  let written := if hasLog then (m.fs.readFile log).toOption.bind (PageFile.applyLog db) else none
  let fs := match written with
    | some b => m.fs.setNodeBytes node b
    | none => m.fs
  let fs := (fs.writeFile log ByteArray.empty).toOption.getD fs
  let fs := if fs.exists? shared then fs else (fs.writeFile shared PageFile.sharedIndex).toOption.getD fs
  set { m with fs }
  pure true

/-- Closes an open database that was the last open on its file: a database in
write-ahead mode takes its log and shared index with it. -/
def close (d : Database) : HostM Unit := do
  if d.logged then
    let m ← get
    removeIfThere (m.locate (d.path ++ "-wal"))
    removeIfThere (m.locate (d.path ++ "-shm"))

/-- Opens the store file at a path, creating it if it is missing, and makes
its table if the database lacks it. -/
def openFile (path : String) : HostM Database := do
  let m ← get
  let q := m.locate path
  let cannot := LedgerError.database s!"Failed to open database: unable to open database file: {path}"
  if let .error _ := m.fs.walk q then throw cannot
  let fs ← match m.fs.entry? q with
    | some .dir => throw cannot
    | some (.file _ _) => pure m.fs
    | none => if q.isEmpty then throw cannot else pure (m.fs.putBytes q ByteArray.empty)
  let id := m.nextConnection
  set { m with fs, nextConnection := id + 1 }
  let some node := fs.nodeAt q | throw cannot
  let logged ← recover path node
  let d : Database := { path, file := q, node, id, logged }
  let bytes := ((← get).fs.nodeBytes node).getD ByteArray.empty
  match StoreFile.prepare bytes with
  | .error msg =>
    d.close
    throw (.database s!"Failed to create kv table: {msg}")
  | .ok (none, cache) => pure { d with cache }
  | .ok (some b, cache) =>
    modify fun m => { m with fs := m.fs.setNodeBytes node b }
    pure { d with cache }

/-- The store in the file now, as the open database sees it. -/
def load (d : Database) : HostM Store := do
  let fs := (← get).fs
  let bytes := (fs.nodeBytes d.node).getD ByteArray.empty
  let moved := fs.nodeAt d.file != some d.node
  pure { medium := .file { bytes, cache := d.cache, moved, session := d.session } }

/-- Writes what a store committed since it was loaded back to the file; the
open database then knows the file's schema as it is. -/
def save (d : Database) (s : Store) : HostM Database := do
  match s.medium with
  | .memory _ => pure d
  | .file h =>
    if h.dirty then
      modify fun m => { m with fs := m.fs.setNodeBytes d.node h.bytes }
      -- a write in rollback mode ends by deleting its journal
      if !d.logged then removeIfThere ((← get).locate (d.path ++ "-journal"))
    pure { d with cache := h.currentSchema.getD h.cache, session := h.session }

end Database

/-- Opens a data directory: takes its lock, then opens its store file. -/
def openDataDir (dir : String) : HostM (Database × DirLock) := do
  let lock ← DirLock.acquire dir
  tryCatch (do pure (← Database.openFile (join dir "chain.db"), lock)) fun e => do
    lock.release
    throw e

end Host
end PowChain
