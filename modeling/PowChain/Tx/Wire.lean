import PowChain.Tx.Basic
import PowChain.Codec.Wire

/-!
# Transactions on the wire

An address travels as its base58 text; a transaction as its fields in order
(sender, recipient, nonce, value, fee, fee price, payload, time); a signed
transaction as the transaction then the signature bytes.  Reading an address
checks its text, and a bad one fails the whole read with the address error's
message.
-/

namespace PowChain

namespace Address

def toWire (a : Address) : ByteArray := Wire.str a.encode

def readWire : Wire.Reader Address := do
  let s ← Wire.readStr
  Wire.liftResult (Address.decode s)

end Address

namespace Transaction

def toWire (tx : Transaction) : ByteArray :=
  tx.sender.toWire ++ tx.recipient.toWire ++ Wire.u64 tx.nonce ++ Wire.u64 tx.value ++
    Wire.u64 tx.fee ++ Wire.u64 tx.feePrice ++ Wire.bytes tx.data ++ Wire.i64 tx.time.toInt

def readWire : Wire.Reader Transaction := do
  let sender ← Address.readWire
  let recipient ← Address.readWire
  let nonce ← Wire.readU64
  let value ← Wire.readU64
  let fee ← Wire.readU64
  let feePrice ← Wire.readU64
  let data ← Wire.readBytes
  let time ← Wire.readI64
  pure ⟨sender, recipient, nonce, value, fee, feePrice, data, Int64.ofInt time⟩

end Transaction

namespace SignedTx

def toWire (s : SignedTx) : ByteArray := s.tx.toWire ++ Wire.bytes s.signature

def readWire : Wire.Reader SignedTx := do
  let tx ← Transaction.readWire
  let sig ← Wire.readBytes
  pure ⟨tx, sig⟩

/-- The wire bytes of a signed transaction. -/
def toBytes (s : SignedTx) : ByteArray := s.toWire

/-- A signed transaction from its wire bytes; a fault is a serialization error. -/
def ofBytes (b : ByteArray) : Result SignedTx :=
  (Wire.decode readWire b).mapError fun f => .serialization f.message

/-- The number of wire bytes. -/
def wireSize (s : SignedTx) : Nat := s.toWire.size

end SignedTx
end PowChain
