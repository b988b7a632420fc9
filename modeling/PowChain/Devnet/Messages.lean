import PowChain.Devnet.Spec
import PowChain.Devnet.View
import PowChain.Net.Message

/-!
# Describing messages

A console describes a message by its sender and payload.  Hashes in a payload
may be given outright, as the hash of a built block, or as the hash of a
described transaction; a block payload carries a built block's wire form or
raw bytes, a transaction payload a described transaction's wire form or raw
bytes.

A message shows as its sender and command with the payload's fields: the
height, the peers, the kind and items or id of an announcement or request,
or the raw payload bytes of a block or transaction.
-/

namespace PowChain
namespace Devnet

open Net

/-- A hash given outright, or as the hash of a built block or described
transaction. -/
inductive HashRef where
  | hash (h : Digest)
  | block (i : Int)
  | tx (t : TxSpec)

def HashRef.resolve (blocks : Array Block) : HashRef → Result Digest
  | .hash h => .ok h
  | .block i => do pure (← blockAt blocks i).hash
  | .tx t => do pure (← t.build {}).hash

/-- A payload description. -/
inductive PayloadSpec where
  | version (height : UInt64)
  | addr (peers : List String)
  | getBlocks
  | inv (kind : InvKind) (items : List HashRef)
  | getData (kind : InvKind) (id : HashRef)
  | block (i : Int)
  | blockRaw (bytes : ByteArray)
  | tx (t : TxSpec)
  | txRaw (bytes : ByteArray)

/-- A message description: sender and payload. -/
structure MessageSpec where
  sender : String
  payload : PayloadSpec

def PayloadSpec.build (blocks : Array Block) : PayloadSpec → Result Payload
  | .version h => .ok (.version h)
  | .addr peers => .ok (.addr peers)
  | .getBlocks => .ok .getBlocks
  | .inv k items => do pure (.inv k (← items.mapM (·.resolve blocks)))
  | .getData k id => do pure (.getData k (← id.resolve blocks))
  | .block i => do pure (.block (← blockAt blocks i).toBytes)
  | .blockRaw b => .ok (.block b)
  | .tx t => do pure (.tx (← t.build {}).toWire)
  | .txRaw b => .ok (.tx b)

def MessageSpec.build (blocks : Array Block) (m : MessageSpec) : Result Message := do
  pure ⟨m.sender, ← m.payload.build blocks⟩

end Devnet

namespace View

open Json Net

/-- A message: sender, command and the payload's fields. -/
def message (m : Message) : Doc :=
  let fields : List (String × Doc) := match m.payload with
    | .version h => [("height", word h)]
    | .addr peers => [("peers", list Doc.str peers)]
    | .getBlocks => []
    | .inv k items => [("inv_kind", .str k.name), ("items", list digest items)]
    | .getData k id => [("inv_kind", .str k.name), ("id", digest id)]
    | .block b => [("payload", hex b)]
    | .tx b => [("payload", hex b)]
  .obj ([("from", .str m.sender), ("command", .str m.command.tag)] ++ fields)

end View
end PowChain
