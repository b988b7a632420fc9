import PowChain.Hash.Sha256
import PowChain.Hash.Ripemd160
import PowChain.Bytes.Hex

/-!
# Digests

A `Digest` is a 32-byte SHA-256 value.  Blocks, transactions, receipts and
state roots are named by digests; the all-zero digest stands for "none"
(the parent of the first block, the root of an empty tree).  Digests are
ordered as byte strings.
-/

namespace PowChain

/-- Thirty-two bytes, the output of SHA-256. -/
structure Digest where
  bytes : ByteArray
  size_eq : bytes.size = 32

namespace Digest

/-- Equal exactly when the bytes are, decided by the byte arrays' own equality. -/
instance : DecidableEq Digest := fun ⟨a, _⟩ ⟨b, _⟩ =>
  match ByteArray.instDecidableEq a b with
  | isTrue h => isTrue (by subst h; rfl)
  | isFalse h => isFalse fun e => h (congrArg Digest.bytes e)

instance : BEq Digest := ⟨fun a b => a.bytes == b.bytes⟩

instance : Ord Digest := ⟨fun a b => Bytes.compare a.bytes b.bytes⟩

/-- The digest of thirty-two zero bytes. -/
def zero : Digest := ⟨Bytes.replicate 32 0, by simp [Bytes.replicate, ByteArray.size]⟩

instance : Inhabited Digest := ⟨zero⟩

/-- Bytes of length thirty-two as a digest. -/
def ofBytes? (b : ByteArray) : Option Digest :=
  if h : b.size = 32 then some ⟨b, h⟩ else none

/-- Lowercase hexadecimal text of a digest. -/
def toHex (d : Digest) : String := Hex.encode d.bytes

/-- Whether every byte is zero. -/
def isZero (d : Digest) : Bool := Bytes.isZero d.bytes

end Digest

/-- SHA-256 of a message. -/
def sha256 (msg : ByteArray) : Digest := ⟨Sha256.hash msg, Sha256.size_hash msg⟩

/-- SHA-256 applied twice. -/
def doubleSha256 (msg : ByteArray) : Digest := sha256 (sha256 msg).bytes

/-- RIPEMD-160 of SHA-256: the twenty-byte hash behind every address. -/
def hash160 (msg : ByteArray) : ByteArray := Ripemd160.hash (Sha256.hash msg)

theorem size_hash160 (msg : ByteArray) : (hash160 msg).size = 20 :=
  Ripemd160.size_hash _

end PowChain
