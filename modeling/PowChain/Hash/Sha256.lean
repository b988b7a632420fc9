import PowChain.Bytes.Basic

/-!
# SHA-256

The hash function of FIPS 180-4.  A message is padded with a one bit, zeros
and its bit length to whole 64-byte blocks; each block is expanded into a
schedule of sixty-four words and folded into an eight-word chaining value by
the compression function.  The digest is the final chaining value, each word
written big-endian.

Words are natural numbers below `2 ^ 32`, reduced after every sum, and the
schedule and the rounds run over lists.  The kernel then evaluates a digest
with its own arithmetic on numbers, which the computed facts about sample
chains rely on: each of them hashes headers, transactions and accounts.

`size_hash` states that every digest has thirty-two bytes.
-/

namespace PowChain
namespace Sha256

/-- Words are taken modulo `2 ^ 32`. -/
def wordModulus : Nat := 4294967296

/-- The round constants: the first thirty-two bits of the fractional parts of
the cube roots of the first sixty-four primes. -/
def roundConstants : List Nat := [
  0x428a2f98, 0x71374491, 0xb5c0fbcf, 0xe9b5dba5, 0x3956c25b, 0x59f111f1, 0x923f82a4, 0xab1c5ed5,
  0xd807aa98, 0x12835b01, 0x243185be, 0x550c7dc3, 0x72be5d74, 0x80deb1fe, 0x9bdc06a7, 0xc19bf174,
  0xe49b69c1, 0xefbe4786, 0x0fc19dc6, 0x240ca1cc, 0x2de92c6f, 0x4a7484aa, 0x5cb0a9dc, 0x76f988da,
  0x983e5152, 0xa831c66d, 0xb00327c8, 0xbf597fc7, 0xc6e00bf3, 0xd5a79147, 0x06ca6351, 0x14292967,
  0x27b70a85, 0x2e1b2138, 0x4d2c6dfc, 0x53380d13, 0x650a7354, 0x766a0abb, 0x81c2c92e, 0x92722c85,
  0xa2bfe8a1, 0xa81a664b, 0xc24b8b70, 0xc76c51a3, 0xd192e819, 0xd6990624, 0xf40e3585, 0x106aa070,
  0x19a4c116, 0x1e376c08, 0x2748774c, 0x34b0bcb5, 0x391c0cb3, 0x4ed8aa4a, 0x5b9cca4f, 0x682e6ff3,
  0x748f82ee, 0x78a5636f, 0x84c87814, 0x8cc70208, 0x90befffa, 0xa4506ceb, 0xbef9a3f7, 0xc67178f2]

/-- The eight working words of the compression function. -/
structure State where
  a : Nat
  b : Nat
  c : Nat
  d : Nat
  e : Nat
  f : Nat
  g : Nat
  h : Nat

/-- The initial chaining value: the first thirty-two bits of the fractional
parts of the square roots of the first eight primes. -/
def initial : State :=
  ⟨0x6a09e667, 0xbb67ae85, 0x3c6ef372, 0xa54ff53a, 0x510e527f, 0x9b05688c, 0x1f83d9ab, 0x5be0cd19⟩

/-- Rotation of a word to the right by `n` places, `0 < n < 32`. -/
@[inline] def rotr (x n : Nat) : Nat := (x >>> n) ||| ((x <<< (32 - n)) % wordModulus)

@[inline] def bigSigma0 (x : Nat) : Nat := rotr x 2 ^^^ rotr x 13 ^^^ rotr x 22
@[inline] def bigSigma1 (x : Nat) : Nat := rotr x 6 ^^^ rotr x 11 ^^^ rotr x 25
@[inline] def smallSigma0 (x : Nat) : Nat := rotr x 7 ^^^ rotr x 18 ^^^ (x >>> 3)
@[inline] def smallSigma1 (x : Nat) : Nat := rotr x 17 ^^^ rotr x 19 ^^^ (x >>> 10)
-- `wordModulus - 1 - x` is the complement of the word `x`
@[inline] def choose (x y z : Nat) : Nat := (x &&& y) ^^^ ((wordModulus - 1 - x) &&& z)
@[inline] def majority (x y z : Nat) : Nat := (x &&& y) ^^^ (x &&& z) ^^^ (y &&& z)

/-- The big-endian words of a block's bytes. -/
def words : List Nat → List Nat
  | b₀ :: b₁ :: b₂ :: b₃ :: rest => ((b₀ <<< 24) ||| (b₁ <<< 16) ||| (b₂ <<< 8) ||| b₃) :: words rest
  | _ => []

/-- `n` more schedule words after `w`, newest first: each from the words two,
seven, fifteen and sixteen places back. -/
def extend : Nat → List Nat → List Nat
  | 0, w => w
  | n + 1, w =>
    extend n ((smallSigma1 (w.getD 1 0) + w.getD 6 0 + smallSigma0 (w.getD 14 0) + w.getD 15 0) % wordModulus :: w)

/-- The sixty-four schedule words of a block: its sixteen words, then each
later word from four earlier ones. -/
def schedule (block : List Nat) : List Nat := (extend 48 (words block).reverse).reverse

/-- One round: word `w` and constant `k` enter the working state. -/
@[inline] def round (s : State) (k w : Nat) : State :=
  let t1 := (s.h + bigSigma1 s.e + choose s.e s.f s.g + k + w) % wordModulus
  let t2 := (bigSigma0 s.a + majority s.a s.b s.c) % wordModulus
  ⟨(t1 + t2) % wordModulus, s.a, s.b, s.c, (s.d + t1) % wordModulus, s.e, s.f, s.g⟩

/-- The compression function: sixty-four rounds over a block's bytes, added
word by word to the chaining value. -/
def compress (h : State) (block : List Nat) : State :=
  let s := (roundConstants.zip (schedule block)).foldl (fun s (k, w) => round s k w) h
  ⟨(h.a + s.a) % wordModulus, (h.b + s.b) % wordModulus, (h.c + s.c) % wordModulus,
    (h.d + s.d) % wordModulus, (h.e + s.e) % wordModulus, (h.f + s.f) % wordModulus,
    (h.g + s.g) % wordModulus, (h.h + s.h) % wordModulus⟩

/-- The chaining value after `n` blocks of `bytes`, from `h`. -/
def compressBlocks : Nat → State → List Nat → State
  | 0, h, _ => h
  | n + 1, h, bytes => compressBlocks n (compress h (bytes.take 64)) (bytes.drop 64)

/-- The padded message: a one bit, zeros up to 56 bytes modulo 64, and the
message length in bits as a 64-bit big-endian number. -/
def pad (msg : ByteArray) : ByteArray :=
  let zeros := (119 - msg.size % 64) % 64
  (msg.push 0x80) ++ Bytes.replicate zeros 0 ++ Bytes.ofNatBE (msg.size * 8) 8

/-- The bytes of a word, most significant first. -/
def wordBytes (x : Nat) : List UInt8 :=
  [(x >>> 24).toUInt8, (x >>> 16).toUInt8, (x >>> 8).toUInt8, x.toUInt8]

/-- The digest of a chaining value. -/
def State.toBytes (s : State) : ByteArray :=
  Bytes.ofList ([s.a, s.b, s.c, s.d, s.e, s.f, s.g, s.h].flatMap wordBytes)

/-- The SHA-256 digest of a message. -/
def hash (msg : ByteArray) : ByteArray :=
  let p := pad msg
  (compressBlocks (p.size / 64) initial (p.data.toList.map UInt8.toNat)).toBytes

theorem size_hash (msg : ByteArray) : (hash msg).size = 32 := by
  simp [hash, State.toBytes, Bytes.size_ofList, wordBytes]

end Sha256
end PowChain
