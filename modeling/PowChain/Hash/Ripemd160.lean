import PowChain.Bytes.Basic

/-!
# RIPEMD-160

The 160-bit hash function of Dobbertin, Bosselaers and Preneel.  The message
is padded as for MD4 (a one bit, zeros, the bit length as a 64-bit
little-endian number); each 64-byte block runs through two parallel lines of
eighty steps, which are then combined with the five-word chaining value.

`size_hash` states that every digest has twenty bytes.
-/

namespace PowChain
namespace Ripemd160

/-- Message word used by each step of the left line. -/
def wordLeft : Array Nat := #[
  0, 1, 2, 3, 4, 5, 6, 7, 8, 9, 10, 11, 12, 13, 14, 15,
  7, 4, 13, 1, 10, 6, 15, 3, 12, 0, 9, 5, 2, 14, 11, 8,
  3, 10, 14, 4, 9, 15, 8, 1, 2, 7, 0, 6, 13, 11, 5, 12,
  1, 9, 11, 10, 0, 8, 12, 4, 13, 3, 7, 15, 14, 5, 6, 2,
  4, 0, 5, 9, 7, 12, 2, 10, 14, 1, 3, 8, 11, 6, 15, 13]

/-- Message word used by each step of the right line. -/
def wordRight : Array Nat := #[
  5, 14, 7, 0, 9, 2, 11, 4, 13, 6, 15, 8, 1, 10, 3, 12,
  6, 11, 3, 7, 0, 13, 5, 10, 14, 15, 8, 12, 4, 9, 1, 2,
  15, 5, 1, 3, 7, 14, 6, 9, 11, 8, 12, 2, 10, 0, 4, 13,
  8, 6, 4, 1, 3, 11, 15, 0, 5, 12, 2, 13, 9, 7, 10, 14,
  12, 15, 10, 4, 1, 5, 8, 7, 6, 2, 13, 14, 0, 3, 9, 11]

/-- Rotation amount of each step of the left line. -/
def shiftLeft : Array UInt32 := #[
  11, 14, 15, 12, 5, 8, 7, 9, 11, 13, 14, 15, 6, 7, 9, 8,
  7, 6, 8, 13, 11, 9, 7, 15, 7, 12, 15, 9, 11, 7, 13, 12,
  11, 13, 6, 7, 14, 9, 13, 15, 14, 8, 13, 6, 5, 12, 7, 5,
  11, 12, 14, 15, 14, 15, 9, 8, 9, 14, 5, 6, 8, 6, 5, 12,
  9, 15, 5, 11, 6, 8, 13, 12, 5, 12, 13, 14, 11, 8, 5, 6]

/-- Rotation amount of each step of the right line. -/
def shiftRight : Array UInt32 := #[
  8, 9, 9, 11, 13, 15, 15, 5, 7, 7, 8, 11, 14, 14, 12, 6,
  9, 13, 15, 7, 12, 8, 9, 11, 7, 7, 12, 7, 6, 15, 13, 11,
  9, 7, 15, 11, 8, 6, 6, 14, 12, 13, 5, 14, 13, 13, 7, 5,
  15, 5, 8, 11, 14, 14, 6, 14, 6, 9, 12, 9, 12, 5, 15, 8,
  8, 5, 12, 9, 12, 5, 14, 6, 8, 13, 6, 5, 15, 13, 11, 11]

/-- Additive constants of the five rounds, left line. -/
def constLeft : Array UInt32 := #[0x00000000, 0x5a827999, 0x6ed9eba1, 0x8f1bbcdc, 0xa953fd4e]

/-- Additive constants of the five rounds, right line. -/
def constRight : Array UInt32 := #[0x50a28be6, 0x5c4dd124, 0x6d703ef3, 0x7a6d76e9, 0x00000000]

/-- The five chaining words. -/
structure State where
  a : UInt32
  b : UInt32
  c : UInt32
  d : UInt32
  e : UInt32

def initial : State := ⟨0x67452301, 0xefcdab89, 0x98badcfe, 0x10325476, 0xc3d2e1f0⟩

@[inline] def rotl (x : UInt32) (n : UInt32) : UInt32 := (x <<< n) ||| (x >>> (32 - n))

/-- The boolean function of round `j` (0 to 4). -/
@[inline] def mix (j : Nat) (x y z : UInt32) : UInt32 :=
  match j with
  | 0 => x ^^^ y ^^^ z
  | 1 => (x &&& y) ||| (~~~x &&& z)
  | 2 => (x ||| ~~~y) ^^^ z
  | 3 => (x &&& z) ||| (y &&& ~~~z)
  | _ => x ^^^ (y ||| ~~~z)

/-- The little-endian word at byte offset `i`. -/
@[inline] def wordAt (b : ByteArray) (i : Nat) : UInt32 :=
  (Bytes.getD b i).toUInt32 ||| ((Bytes.getD b (i + 1)).toUInt32 <<< 8) |||
    ((Bytes.getD b (i + 2)).toUInt32 <<< 16) ||| ((Bytes.getD b (i + 3)).toUInt32 <<< 24)

/-- One step of a line: round function `j`, message word `x`, constant `k`,
rotation `r`. -/
@[inline] def step (s : State) (j : Nat) (x k r : UInt32) : State :=
  let t := rotl (s.a + mix j s.b s.c s.d + x + k) r + s.e
  ⟨s.e, t, s.b, rotl s.c 10, s.d⟩

/-- The compression of the block at byte offset `start`. -/
def compress (h : State) (block : ByteArray) (start : Nat) : State :=
  let x := Nat.fold 16 (fun i _ w => w.push (wordAt block (start + 4 * i))) (Array.mkEmpty 16)
  let l := Nat.fold 80 (fun i _ s =>
    step s (i / 16) x[wordLeft[i]!]! constLeft[i / 16]! shiftLeft[i]!) h
  let r := Nat.fold 80 (fun i _ s =>
    step s (4 - i / 16) x[wordRight[i]!]! constRight[i / 16]! shiftRight[i]!) h
  ⟨h.b + l.c + r.d, h.c + l.d + r.e, h.d + l.e + r.a, h.e + l.a + r.b, h.a + l.b + r.c⟩

/-- The padded message: a one bit, zeros up to 56 bytes modulo 64, and the bit
length as a 64-bit little-endian number. -/
def pad (msg : ByteArray) : ByteArray :=
  let zeros := (119 - msg.size % 64) % 64
  (msg.push 0x80) ++ Bytes.replicate zeros 0 ++ Bytes.ofNatLE (msg.size * 8) 8

def wordBytes (x : UInt32) : List UInt8 :=
  [x.toUInt8, (x >>> 8).toUInt8, (x >>> 16).toUInt8, (x >>> 24).toUInt8]

/-- The RIPEMD-160 digest of a message. -/
def hash (msg : ByteArray) : ByteArray :=
  let p := pad msg
  let s := Nat.fold (p.size / 64) (fun i _ h => compress h p (64 * i)) initial
  Bytes.ofList ([s.a, s.b, s.c, s.d, s.e].flatMap wordBytes)

theorem size_hash (msg : ByteArray) : (hash msg).size = 20 := by
  simp [hash, Bytes.size_ofList, wordBytes]

end Ripemd160
end PowChain
