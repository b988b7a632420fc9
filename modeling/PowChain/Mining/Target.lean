import PowChain.Hash.Digest

/-!
# Proof-of-work targets

A hash meets difficulty `bits` when its first `bits` bits are zero, that is
when it is below `2 ^ (256 - bits)`.  Difficulty zero is met by every hash;
no hash meets a difficulty above 256.
-/

namespace PowChain
namespace Target

/-- The hardest difficulty a hash can meet. -/
def maxBits : Nat := 256

/-- Leading zero bits of one byte. -/
def byteLeadingZeros (b : UInt8) : Nat :=
  (List.range 8).find? (fun i => b.toNat / Nat.pow 2 (7 - i) % 2 == 1) |>.getD 8

/-- The number of leading zero bits of a byte string. -/
def leadingZeroBitsOf : List UInt8 → Nat
  | [] => 0
  | b :: rest => if b == 0 then 8 + leadingZeroBitsOf rest else byteLeadingZeros b

/-- The number of leading zero bits of a digest. -/
def leadingZeroBits (d : Digest) : Nat := leadingZeroBitsOf d.bytes.toList

/-- Whether a digest meets difficulty `bits`. -/
def meets (d : Digest) (bits : Nat) : Bool := leadingZeroBits d ≥ bits

/-- The bound `2 ^ (256 - bits)` as 32 big-endian bytes: a single bit set,
bit `e % 8` of byte `31 - e / 8` for `e = 256 - bits`.  None for difficulty
zero, where every hash qualifies, and for difficulties above 256. -/
def target (bits : Nat) : Option ByteArray :=
  if bits == 0 || bits > maxBits then none
  else
    let exponent := 256 - bits
    some ((Bytes.replicate 32 0).set! (31 - exponent / 8) ((1 : UInt8) <<< (exponent % 8).toUInt8))

end Target
end PowChain
