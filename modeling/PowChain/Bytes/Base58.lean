import PowChain.Bytes.Basic
import PowChain.Text.Escape

/-!
# Base58

Bytes written in the 58-letter alphabet that leaves out `0`, `O`, `I` and `l`.
Each leading zero byte is written as the letter `1`; the remaining bytes,
read as one big-endian number, are written in base 58, most significant digit
first.  Reading reverses this.  A text with a byte above 127 is refused at
that byte; a character outside the alphabet is refused with the character.
-/

namespace PowChain
namespace Base58

/-- The fifty-eight letters, in the order of their values. -/
def alphabet : String := "123456789ABCDEFGHJKLMNPQRSTUVWXYZabcdefghijkmnopqrstuvwxyz"

/-- Why a text is not base58. -/
inductive DecodeError where
  /-- A character outside the alphabet, at a byte offset. -/
  | invalidChar (c : Char) (index : Nat)
  /-- A byte above 127 at a byte offset. -/
  | nonAscii (index : Nat)
  deriving DecidableEq, Repr

/-- The sentence that reports a decoding failure. -/
def DecodeError.message : DecodeError → String
  | .invalidChar c i =>
    "provided string contained invalid character " ++ Text.quoteChar c ++ " at byte " ++ toString i
  | .nonAscii i => "provided string contained non-ascii character starting at byte " ++ toString i

/-- The letter of a value below 58. -/
def letter (v : Nat) : Char := (alphabet.toList.getD v '1')

/-- The value of a letter, if it is one. -/
def value? (c : Char) : Option Nat := alphabet.toList.idxOf? c

/-- The base-58 digits of `n`, most significant first; none for zero. -/
def digits (n : Nat) : List Char :=
  if n = 0 then [] else digits (n / 58) ++ [letter (n % 58)]
termination_by n
decreasing_by omega

/-- The big-endian bytes of `n` without leading zeros; none for zero. -/
def natBytes (n : Nat) : List UInt8 :=
  if n = 0 then [] else natBytes (n / 256) ++ [(n % 256).toUInt8]
termination_by n
decreasing_by omega

/-- The base58 text of some bytes. -/
def encode (b : ByteArray) : String :=
  let l := b.toList
  let zeros := (l.takeWhile (· == 0)).length
  let n := (l.drop zeros).foldl (fun acc x => acc * 256 + x.toNat) 0
  String.ofList (List.replicate zeros '1' ++ digits n)

/-- Reads the letters after the leading ones: the number they write, or the
first fault. -/
def readNumber : List UInt8 → Nat → Nat → Except DecodeError Nat
  | [], _, acc => .ok acc
  | b :: rest, i, acc =>
    if b.toNat > 127 then .error (.nonAscii i)
    else match value? (Char.ofNat b.toNat) with
      | none => .error (.invalidChar (Char.ofNat b.toNat) i)
      | some v => readNumber rest (i + 1) (acc * 58 + v)

/-- The bytes written by a base58 text. -/
def decode (s : String) : Except DecodeError ByteArray := do
  let raw := s.toUTF8.toList
  let ones := (raw.takeWhile (· == 49)).length
  let n ← readNumber (raw.drop ones) ones 0
  pure (Bytes.ofList (List.replicate ones 0 ++ natBytes n))

end Base58
end PowChain
