/-!
# Byte strings

Byte strings are `ByteArray`s.  This module gathers the fixed-width integer
layouts that the ledger's formats use: little-endian words for the wire and
canonical encodings, big-endian numbers for digests, keys and targets.

Each layout of a number has exactly the width asked for (`size_ofNatLE`,
`size_ofNatBE`).
-/

namespace PowChain
namespace Bytes

/-- The bytes of a list, in order. -/
def ofList (l : List UInt8) : ByteArray := ⟨l.toArray⟩

/-- `n` copies of the byte `b`. -/
def replicate (n : Nat) (b : UInt8) : ByteArray := ⟨Array.replicate n b⟩

/-- The bytes of a text in its UTF-8 form. -/
def ofString (s : String) : ByteArray := s.toUTF8

/-- The `width` low bytes of `n`, least significant first. -/
def ofNatLE (n width : Nat) : ByteArray :=
  ofList ((List.range width).map fun i => (n / Nat.pow 256 i % 256).toUInt8)

/-- The `width` low bytes of `n`, most significant first. -/
def ofNatBE (n width : Nat) : ByteArray :=
  ofList ((List.range width).reverse.map fun i => (n / Nat.pow 256 i % 256).toUInt8)

/-- The number whose bytes, most significant first, are `b`. -/
def toNatBE (b : ByteArray) : Nat :=
  b.toList.foldl (fun acc x => acc * 256 + x.toNat) 0

/-- The number whose bytes, least significant first, are `b`. -/
def toNatLE (b : ByteArray) : Nat :=
  b.toList.foldr (fun x acc => acc * 256 + x.toNat) 0

/-- A 32-bit word, least significant byte first. -/
def u32 (n : UInt32) : ByteArray := ofNatLE n.toNat 4

/-- A 64-bit word, least significant byte first. -/
def u64 (n : UInt64) : ByteArray := ofNatLE n.toNat 8

/-- A signed 64-bit word in two's complement, least significant byte first. -/
def i64 (n : Int) : ByteArray := ofNatLE (n % Int.ofNat (Nat.pow 2 64)).toNat 8

/-- The byte at `i`, or zero past the end. -/
def getD (b : ByteArray) (i : Nat) : UInt8 :=
  if h : i < b.size then b[i] else 0

/-- The bytes from `start` on, at most `len` of them. -/
def slice (b : ByteArray) (start len : Nat) : ByteArray :=
  b.extract start (start + len)

/-- The bytes from `start` to the end. -/
def drop (b : ByteArray) (start : Nat) : ByteArray :=
  b.extract start b.size

/-- The first `len` bytes. -/
def take (b : ByteArray) (len : Nat) : ByteArray :=
  b.extract 0 len

/-- Lexicographic order on byte strings, the order of a sorted key-value store. -/
def compare (a b : ByteArray) : Ordering :=
  Ord.compare a.toList b.toList

/-- Inserts `a` before the first element whose key is above its own. -/
def insertByKey {α : Type} (key : α → ByteArray) (a : α) : List α → List α
  | [] => [a]
  | b :: l => if Bytes.compare (key a) (key b) != .gt then a :: b :: l else b :: insertByKey key a l

/-- The elements in ascending order of their keys, those of equal keys in
their order. -/
def sortByKey {α : Type} (key : α → ByteArray) (l : List α) : List α :=
  l.foldr (insertByKey key) []

/-- Whether `p` is a prefix of `b`. -/
def startsWith (b p : ByteArray) : Bool :=
  p.size ≤ b.size && (List.range p.size).all fun i => getD b i == getD p i

/-- The concatenation of a list of byte strings. -/
def concat (parts : List ByteArray) : ByteArray :=
  parts.foldl (· ++ ·) ByteArray.empty

/-- Whether every byte is zero. -/
def isZero (b : ByteArray) : Bool := b.toList.all (· == 0)

theorem size_ofList (l : List UInt8) : (ofList l).size = l.length := by
  simp [ofList, ByteArray.size]

@[simp] theorem size_ofNatLE (n width : Nat) : (ofNatLE n width).size = width := by
  simp [ofNatLE, size_ofList]

@[simp] theorem size_ofNatBE (n width : Nat) : (ofNatBE n width).size = width := by
  simp [ofNatBE, size_ofList]

end Bytes
end PowChain
