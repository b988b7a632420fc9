import PowChain.Store.Basic
import PowChain.Tx.Wire
import PowChain.Net.SocketAddr

/-!
# Known peers

A node keeps the peers it knows by address text, in text order, up to a
limit.  A peer is added when it talks to the node or is announced, and
dropped the first time a send to it fails.  A set may be backed by the store:
each member then has a record under `peers/` and its address, written when it
is added and deleted when it is dropped, and a set read back from the store
holds every readable record (keyed by the address inside the record), none of
them connected.

A sync mode says how much history a node pulls: `default` downloads missing
blocks, `account` never downloads blocks, `full` downloads and re-verifies
the chain.  Mode names are read ignoring ASCII case.
-/

namespace PowChain
namespace Net

/-- How much history a node pulls from its peers. -/
inductive SyncMode where
  | default
  | account
  | full
  deriving DecidableEq, Repr, Inhabited

namespace SyncMode

def name : SyncMode → String
  | .default => "default"
  | .account => "account"
  | .full => "full"

def downloadsBlocks : SyncMode → Bool
  | .account => false
  | _ => true

/-- The mode a name stands for, ignoring ASCII case. -/
def parse (t : String) : Result SyncMode :=
  let lower := String.map Char.toLower t
  if lower == "default" then .ok .default
  else if lower == "account" then .ok .account
  else if lower == "full" then .ok .full
  else .error (.config s!"unknown sync mode '{lower}'")

def index : SyncMode → Nat
  | .default => 0
  | .account => 1
  | .full => 2

def readWire : Wire.Reader SyncMode := do
  match ← Wire.readVariant 3 with
  | 0 => pure .default
  | 1 => pure .account
  | _ => pure .full

end SyncMode

/-- A known peer. -/
structure PeerNode where
  /-- The address others reach it at, usually `host:port`. -/
  addr : String
  isRoot : Bool := false
  syncMode : SyncMode := .default
  account : Option Address := none
  connected : Bool := false

namespace PeerNode

def toWire (p : PeerNode) : ByteArray :=
  Wire.str p.addr ++ Wire.bool p.isRoot ++ Wire.u32 p.syncMode.index.toUInt32 ++
    Wire.option Address.toWire p.account ++ Wire.bool p.connected

def readWire : Wire.Reader PeerNode := do
  let addr ← Wire.readStr
  let isRoot ← Wire.readBool
  let syncMode ← SyncMode.readWire
  let account ← Wire.readOption Address.readWire
  let connected ← Wire.readBool
  pure ⟨addr, isRoot, syncMode, account, connected⟩

/-- The socket address the peer's text spells. -/
def socketAddr (p : PeerNode) : Result SocketAddr :=
  match SocketAddr.parse? p.addr with
  | some a => .ok a
  | none => .error (.network s!"bad peer address {p.addr}: invalid socket address syntax")

end PeerNode

/-- The peers a node knows, by address text. -/
structure PeerSet where
  /-- Members in address order. -/
  peers : List PeerNode := []
  maxPeers : Nat := 64
  /-- Whether membership is written to the store. -/
  persistent : Bool := false

namespace PeerSet

def defaultMaxPeers : Nat := 64

def get? (ps : PeerSet) (addr : String) : Option PeerNode := ps.peers.find? (·.addr == addr)

def contains (ps : PeerSet) (addr : String) : Bool := (ps.get? addr).isSome

/-- Member addresses in order. -/
def addrs (ps : PeerSet) : List String := ps.peers.map (·.addr)

def size (ps : PeerSet) : Nat := ps.peers.length

def isEmpty (ps : PeerSet) : Bool := ps.peers.isEmpty

/-- Inserts a peer into an address-ordered list, replacing one with its
address. -/
def insertSorted (p : PeerNode) : List PeerNode → List PeerNode
  | [] => [p]
  | q :: rest =>
    if p.addr < q.addr then p :: q :: rest
    else if p.addr == q.addr then p :: rest
    else q :: insertSorted p rest

/-- Adds a new peer if there is room, writing its record first; the answer
says whether it was added.  A refused write adds nothing. -/
def insert (ps : PeerSet) (s : Store) (p : PeerNode) : Result Bool × PeerSet × Store :=
  if ps.contains p.addr || ps.size ≥ ps.maxPeers then (.ok false, ps, s)
  else
    let written := if ps.persistent then s.put (Keys.peer p.addr) p.toWire else .ok s
    match written with
    | .ok s => (.ok true, { ps with peers := insertSorted p ps.peers }, s)
    | .error e => (.error e, ps, s)

def addPeer (ps : PeerSet) (s : Store) (addr : String) : Result Bool × PeerSet × Store :=
  ps.insert s { addr }

/-- Drops a peer and then its record; the answer says whether it was known.
The peer is gone even when its record cannot be deleted. -/
def remove (ps : PeerSet) (s : Store) (addr : String) : Result Bool × PeerSet × Store :=
  if !ps.contains addr then (.ok false, ps, s)
  else
    let ps := { ps with peers := ps.peers.filter (·.addr != addr) }
    let erased := if ps.persistent then s.erase (Keys.peer addr) else .ok s
    match erased with
    | .ok s => (.ok true, ps, s)
    | .error e => (.error e, ps, s)

def markConnected (ps : PeerSet) (addr : String) (connected : Bool) : PeerSet :=
  { ps with peers := ps.peers.map fun p => if p.addr == addr then { p with connected } else p }

/-- The set kept in a store: every readable record, not connected. -/
def load (s : Store) (maxPeers : Nat) : Result PeerSet := do
  let read := (← s.scan Keys.peersPrefix).filterMap fun (_, v) =>
    match Wire.decode PeerNode.readWire v with
    | .ok p => some { p with connected := false }
    | .error _ => none
  pure { peers := read.foldl (fun acc p => insertSorted p acc) [], maxPeers, persistent := true }

end PeerSet
end Net
end PowChain
