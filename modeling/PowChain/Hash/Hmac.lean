import PowChain.Hash.Sha256

/-!
# HMAC-SHA-256

The keyed hash of RFC 2104 over SHA-256: a key longer than a block is hashed
first, then padded with zeros to 64 bytes, and the message is hashed inside
the key masked with `0x36` and again inside the key masked with `0x5c`.
-/

namespace PowChain
namespace Hmac

/-- The key brought to one 64-byte block. -/
def blockKey (key : ByteArray) : ByteArray :=
  let k := if key.size > 64 then Sha256.hash key else key
  k ++ Bytes.replicate (64 - k.size) 0

/-- Every byte of `b` combined with `mask` by exclusive or. -/
def maskWith (b : ByteArray) (mask : UInt8) : ByteArray :=
  Bytes.ofList (b.toList.map (· ^^^ mask))

/-- HMAC-SHA-256 of `msg` under `key`. -/
def sha256 (key msg : ByteArray) : ByteArray :=
  let k := blockKey key
  Sha256.hash (maskWith k 0x5c ++ Sha256.hash (maskWith k 0x36 ++ msg))

end Hmac
end PowChain
