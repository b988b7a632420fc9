import PowChain.Sql.Extended

/-!
# Text encodings

A database keeps its texts in one encoding, UTF-8 or UTF-16 of either byte
order, as its header says.  Every text and blob the engine holds carries the
encoding of its bytes: for a blob, how those bytes read when it is taken as
a text.  A blob bound to a statement is in UTF-8 whatever the database's
encoding; the values the engine makes are in the database's.

Texts move between encodings the engine's way, which never fails and is not
always reversible:

* UTF-8 is read as `Text.readChar` reads it: a malformed sequence, an
  overlong form or a surrogate as U+FFFD, a stray continuation byte as its
  own value.  A code above U+FFFF is written as the surrogate pair of its
  low twenty bits.
* UTF-16 drops a last odd byte.  A surrogate takes the unit after it,
  whatever that unit is, and the two are read as a pair; a surrogate at the
  end is written as it stands.
-/

namespace PowChain
namespace Sql

/-- How the bytes of a text encode its characters. -/
inductive Encoding where
  | utf8
  | utf16le
  | utf16be
  deriving DecidableEq, Repr

/-- The encoding a database header names: 2 for UTF-16LE, 3 for UTF-16BE,
UTF-8 for anything else. -/
def Encoding.ofCode (n : Nat) : Encoding :=
  if n == 2 then .utf16le else if n == 3 then .utf16be else .utf8

namespace Text

/-- Whether a byte continues a character. -/
def isContinuation (b : UInt8) : Bool := b.toNat / 64 == 2

/-- The bits a lead byte contributes to its code point. -/
def leadBits (b : UInt8) : Nat :=
  let v := b.toNat
  if v < 0xE0 then v - 0xC0
  else if v < 0xF0 then v - 0xE0
  else if v < 0xF8 then v - 0xF0
  else if v < 0xFC then v - 0xF8
  else if v < 0xFE then v - 0xFC
  else 0

/-- Folds continuation bytes into a code, as a 32-bit word. -/
def readContinuations (c : Nat) : List UInt8 → Nat × List UInt8
  | [] => (c, [])
  | b :: rest =>
    if isContinuation b then readContinuations ((c * 64 + b.toNat % 64) % twoPow 32) rest
    else (c, b :: rest)

/-- Whether a code read from several bytes stands for no character. -/
def unfitCode (c : Nat) : Bool :=
  c < 0x80 || (0xD800 ≤ c && c ≤ 0xDFFF) || c == 0xFFFE || c == 0xFFFF

/-- Reads one character: its code and the bytes after it. -/
def readChar : List UInt8 → Option (Nat × List UInt8)
  | [] => none
  | b :: rest =>
    if b.toNat < 0xC0 then some (b.toNat, rest)
    else
      let (c, rest) := readContinuations (leadBits b) rest
      some (if unfitCode c then 0xFFFD else c, rest)

/-- The codes of the characters of bytes. -/
def codes : Nat → List UInt8 → List Nat
  | 0, _ => []
  | fuel + 1, l =>
    match readChar l with
    | some (c, rest) => c :: codes fuel rest
    | none => []

/-- The UTF-8 bytes of a code, by the engine's rule: five bits of lead
byte and continuation bytes as needed, surrogates included. -/
def encodeCode (c : Nat) : List UInt8 :=
  if c < 0x80 then [c.toUInt8]
  else if c < 0x800 then [(0xC0 + c / 64 % 32).toUInt8, (0x80 + c % 64).toUInt8]
  else if c < 0x10000 then
    [(0xE0 + c / 4096 % 16).toUInt8, (0x80 + c / 64 % 64).toUInt8, (0x80 + c % 64).toUInt8]
  else
    [(0xF0 + c / 262144 % 8).toUInt8, (0x80 + c / 4096 % 64).toUInt8,
      (0x80 + c / 64 % 64).toUInt8, (0x80 + c % 64).toUInt8]

/-- The UTF-16 code units of a code. -/
def units (c : Nat) : List Nat :=
  if c < 0x10000 then [c] else [0xD800 + (c - 0x10000) / 1024 % 1024, 0xDC00 + c % 1024]

/-- The codes of UTF-16 code units. -/
def ofUnits : List Nat → List Nat
  | [] => []
  | [u] => [u]
  | u :: v :: rest =>
    if 0xD800 ≤ u && u < 0xE000 then
      (v % 1024 + u % 64 * 1024 + (u / 64 % 16 * 64 + 64) * 1024) :: ofUnits rest
    else u :: ofUnits (v :: rest)

end Text

namespace Encoding

/-- The two bytes of a UTF-16 code unit. -/
def unitBytes (bigEndian : Bool) (u : Nat) : List UInt8 :=
  if bigEndian then [(u / 256).toUInt8, (u % 256).toUInt8] else [(u % 256).toUInt8, (u / 256).toUInt8]

/-- The code units of UTF-16 bytes; a last odd byte is dropped. -/
def unitsOf (bigEndian : Bool) : List UInt8 → List Nat
  | x :: y :: rest => (if bigEndian then x.toNat * 256 + y.toNat else y.toNat * 256 + x.toNat) :: unitsOf bigEndian rest
  | _ => []

/-- UTF-8 bytes in an encoding. -/
def encode : Encoding → ByteArray → ByteArray
  | .utf8, b => b
  | .utf16le, b => Bytes.ofList ((Text.codes b.size b.toList).flatMap fun c => (Text.units c).flatMap (unitBytes false))
  | .utf16be, b => Bytes.ofList ((Text.codes b.size b.toList).flatMap fun c => (Text.units c).flatMap (unitBytes true))

/-- Bytes in an encoding as UTF-8. -/
def decode : Encoding → ByteArray → ByteArray
  | .utf8, b => b
  | .utf16le, b => Bytes.ofList ((Text.ofUnits (unitsOf false b.toList)).flatMap Text.encodeCode)
  | .utf16be, b => Bytes.ofList ((Text.ofUnits (unitsOf true b.toList)).flatMap Text.encodeCode)

/-- Bytes in encoding `src` in encoding `dst`. -/
def translate (src dst : Encoding) (b : ByteArray) : ByteArray :=
  if src == dst then b else dst.encode (src.decode b)

/-- The encoding two texts are compared in: the other's when one of them
is in UTF-8. -/
def meet (a b : Encoding) : Encoding := if a == .utf8 then b else a

end Encoding

end Sql
end PowChain
