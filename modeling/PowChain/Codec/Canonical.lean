import PowChain.Hash.Digest

/-!
# Canonical preimages

Every hashed value is written field by field into a preimage that starts with
the format version (one byte, `1`) and usually a domain tag (`tx`, `header`,
`receipt`, `state`) so that values of different kinds never share a digest.
Integers are little-endian; hashes and addresses are written as they are; a
byte string of varying length carries a 32-bit length prefix.
-/

namespace PowChain
namespace Canonical

/-- The version byte that opens every preimage. -/
def formatVersion : UInt8 := 1

/-- One field of a preimage. -/
inductive Field where
  | u8 (v : UInt8)
  | u32 (v : UInt32)
  | u64 (v : UInt64)
  | i64 (v : Int)
  /-- Bytes of a width known to the reader: no length prefix. -/
  | fixed (b : ByteArray)
  /-- Bytes of varying width, after their length as a 32-bit word. -/
  | bytes (b : ByteArray)

/-- The bytes of one field. -/
def Field.write : Field → ByteArray
  | .u8 v => ByteArray.empty.push v
  | .u32 v => Bytes.u32 v
  | .u64 v => Bytes.u64 v
  | .i64 v => Bytes.i64 v
  | .fixed b => b
  | .bytes b => Bytes.u32 b.size.toUInt32 ++ b

/-- The preimage of some fields, without a domain tag. -/
def preimage (fields : List Field) : ByteArray :=
  fields.foldl (fun acc f => acc ++ f.write) (ByteArray.empty.push formatVersion)

/-- The preimage of some fields under a domain tag. -/
def tagged (domain : ByteArray) (fields : List Field) : ByteArray :=
  preimage (.bytes domain :: fields)

end Canonical
end PowChain
