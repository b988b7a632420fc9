import PowChain.Codec.Wire
import PowChain.Error

/-!
# Calls and answers

A remote call names what it asks for and carries an opaque body; the answer
carries a status and an opaque body: the answer's record on success, the
error's sentence otherwise.  Both are written in the wire encoding: the kind
or status as a 32-bit variant index, the body as a length-prefixed run.

The status of a failure follows its cause: a rejected input is `Rejected`, a
missing record `NotFound`, an unreadable request `BadRequest`, anything else
`Internal`.
-/

namespace PowChain
namespace Rpc

/-- What a call asks for. -/
inductive CallKind where
  | syncGenesis
  | syncPeers
  | addPeer
  | txAdd
  | blockAdd
  | blockGet
  | txGet
  | invite
  | version
  deriving DecidableEq, Repr, Inhabited

namespace CallKind

def all : List CallKind :=
  [.syncGenesis, .syncPeers, .addPeer, .txAdd, .blockAdd, .blockGet, .txGet, .invite, .version]

def name : CallKind → String
  | .syncGenesis => "SyncGenesis"
  | .syncPeers => "SyncPeers"
  | .addPeer => "AddPeer"
  | .txAdd => "TxAdd"
  | .blockAdd => "BlockAdd"
  | .blockGet => "BlockGet"
  | .txGet => "TxGet"
  | .invite => "Invite"
  | .version => "Version"

def index : CallKind → Nat
  | .syncGenesis => 0
  | .syncPeers => 1
  | .addPeer => 2
  | .txAdd => 3
  | .blockAdd => 4
  | .blockGet => 5
  | .txGet => 6
  | .invite => 7
  | .version => 8

def ofName? (s : String) : Option CallKind := all.find? (·.name == s)

def ofIndex? (i : Nat) : Option CallKind := all.find? (·.index == i)

end CallKind

/-- How a call went. -/
inductive Status where
  | ok
  /-- The request body could not be read. -/
  | badRequest
  | notFound
  /-- The request was readable but failed validation. -/
  | rejected
  | internal
  deriving DecidableEq, Repr

namespace Status

def name : Status → String
  | .ok => "Ok"
  | .badRequest => "BadRequest"
  | .notFound => "NotFound"
  | .rejected => "Rejected"
  | .internal => "Internal"

def index : Status → Nat
  | .ok => 0
  | .badRequest => 1
  | .notFound => 2
  | .rejected => 3
  | .internal => 4

/-- The status a failure answers with. -/
def ofError (e : LedgerError) : Status :=
  if e.isValidation then .rejected
  else if e.isNotFound then .notFound
  else match e with
    | .serialization _ | .protocol _ => .badRequest
    | _ => .internal

end Status

/-- A call: what it asks for and its body. -/
structure Call where
  kind : CallKind
  payload : ByteArray

namespace Call

def encode (c : Call) : ByteArray :=
  Wire.u32 c.kind.index.toUInt32 ++ Wire.bytes c.payload

def readWire : Wire.Reader Call := do
  let i ← Wire.readVariant CallKind.all.length
  let payload ← Wire.readBytes
  pure ⟨(CallKind.ofIndex? i).getD .syncGenesis, payload⟩

def decode (b : ByteArray) : Result Call :=
  (Wire.decode readWire b).mapError fun f => .serialization f.message

end Call

/-- An answer: the status and the body. -/
structure Response where
  status : Status
  /-- The answer's record on success, the error's sentence otherwise. -/
  payload : ByteArray

namespace Response

def ok (payload : ByteArray) : Response := ⟨.ok, payload⟩

def error (e : LedgerError) : Response := ⟨.ofError e, e.message.toUTF8⟩

def isOk (r : Response) : Bool := r.status == .ok

end Response

end Rpc
end PowChain
