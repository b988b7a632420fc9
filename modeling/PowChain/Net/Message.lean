import PowChain.Block.Basic
import PowChain.Text.Escape

/-!
# Peer-to-peer messages

A message travels in one frame: the command tag in twelve bytes (ASCII, padded
with zeros), the protocol version byte, then the wire form of the sender's
address text followed by the command's payload.  A frame is at most 32 MiB.

Decoding checks, in order: the size limit, that the twelve tag bytes and the
version byte are there, the tag (exactly twelve bytes, zero-padded, one of the
known commands), the version, and finally the body; trailing bytes after the
body are ignored.  Block and transaction payloads carry wire bytes that are
decoded on their own, later.
-/

namespace PowChain
namespace Net

/-- The kinds of messages. -/
inductive Command where
  | version
  | addr
  | getBlocks
  | inv
  | getData
  | block
  | tx
  deriving DecidableEq, Repr

/-- Length of the command field. -/
def commandLength : Nat := 12

/-- The protocol version every frame carries. -/
def protocolVersion : UInt8 := 1

/-- The largest frame. -/
def maxMessageSize : Nat := 32 * 1024 * 1024

namespace Command

def all : List Command := [.version, .addr, .getBlocks, .inv, .getData, .block, .tx]

def tag : Command → String
  | .version => "version"
  | .addr => "addr"
  | .getBlocks => "getblocks"
  | .inv => "inv"
  | .getData => "getdata"
  | .block => "block"
  | .tx => "tx"

/-- The tag padded with zeros to the command length. -/
def toBytes (c : Command) : ByteArray :=
  c.tag.toUTF8 ++ Bytes.replicate (commandLength - c.tag.utf8ByteSize) 0

/-- The command of a tag field. -/
def ofBytes (b : ByteArray) : Result Command := do
  if b.size != commandLength then
    throw (.protocol s!"command field must be {commandLength} bytes, got {b.size}")
  let l := b.toList
  let name := l.takeWhile (· != 0)
  if (l.drop name.length).any (· != 0) then throw (.protocol "command is not zero-padded")
  match all.find? fun c => c.tag.toUTF8.toList == name with
  | some c => pure c
  | none => throw (.protocol ("unknown command " ++ Text.quoteString (Utf8.lossy (Bytes.ofList name))))

end Command

/-- What an announcement or a request is about. -/
inductive InvKind where
  | block
  | tx
  deriving DecidableEq, Repr

namespace InvKind

def toWire : InvKind → ByteArray
  | .block => Wire.u32 0
  | .tx => Wire.u32 1

def readWire : Wire.Reader InvKind := do
  pure (if (← Wire.readVariant 2) == 0 then .block else .tx)

def name : InvKind → String
  | .block => "block"
  | .tx => "tx"

end InvKind

/-- The payload of each kind of message. -/
inductive Payload where
  /-- The number of the sender's newest block. -/
  | version (bestHeight : UInt64)
  | addr (peers : List String)
  | getBlocks
  | inv (kind : InvKind) (items : List Digest)
  | getData (kind : InvKind) (id : Digest)
  /-- A block's wire bytes. -/
  | block (bytes : ByteArray)
  /-- A transaction's wire bytes. -/
  | tx (bytes : ByteArray)

namespace Payload

def command : Payload → Command
  | .version _ => .version
  | .addr _ => .addr
  | .getBlocks => .getBlocks
  | .inv .. => .inv
  | .getData .. => .getData
  | .block _ => .block
  | .tx _ => .tx

def toWire : Payload → ByteArray
  | .version h => Wire.u64 h
  | .addr peers => Wire.seq Wire.str peers
  | .getBlocks => ByteArray.empty
  | .inv k items => k.toWire ++ Wire.seq (·.bytes) items
  | .getData k id => k.toWire ++ id.bytes
  | .block b => Wire.bytes b
  | .tx b => Wire.bytes b

def readWire : Command → Wire.Reader Payload
  | .version => do pure (.version (← Wire.readU64))
  | .addr => do pure (.addr (← Wire.readSeq Wire.readStr))
  | .getBlocks => pure .getBlocks
  | .inv => do
    let k ← InvKind.readWire
    pure (.inv k (← Wire.readSeq Digest.readWire))
  | .getData => do
    let k ← InvKind.readWire
    pure (.getData k (← Digest.readWire))
  | .block => do pure (.block (← Wire.readBytes))
  | .tx => do pure (.tx (← Wire.readBytes))

end Payload

/-- A message: the sender's address text and a payload. -/
structure Message where
  sender : String
  payload : Payload

namespace Message

def command (m : Message) : Command := m.payload.command

/-- The frame of a message, unless it is over the size limit. -/
def encode (m : Message) : Result ByteArray := do
  let out := m.command.toBytes.push protocolVersion ++ Wire.str m.sender ++ m.payload.toWire
  if out.size > maxMessageSize then
    throw (.protocol s!"message of {out.size} bytes exceeds limit of {maxMessageSize}")
  pure out

/-- The message of a frame. -/
def decode (b : ByteArray) : Result Message := do
  if b.size > maxMessageSize then
    throw (.protocol s!"message of {b.size} bytes exceeds limit of {maxMessageSize}")
  if b.size < commandLength + 1 then throw (.protocol "truncated message header")
  let c ← Command.ofBytes (b.extract 0 commandLength)
  let v := Bytes.getD b commandLength
  if v != protocolVersion then throw (.protocol s!"unsupported protocol version {v}")
  let body := b.extract (commandLength + 1) b.size
  let r : Wire.Reader Message := do
    let sender ← Wire.readStr
    pure ⟨sender, ← Payload.readWire c⟩
  match Wire.decode r body with
  | .ok m => pure m
  | .error f => throw (.protocol ("malformed payload: " ++ f.message))

end Message

/-- The block carried by a block payload. -/
def decodeBlockPayload (b : ByteArray) : Result Block :=
  (Block.ofBytes b).mapError fun e => .protocol ("malformed block: " ++ e.message)

/-- The transaction carried by a transaction payload. -/
def decodeTxPayload (b : ByteArray) : Result SignedTx :=
  (SignedTx.ofBytes b).mapError fun e => .protocol ("malformed transaction: " ++ e.message)

end Net
end PowChain
