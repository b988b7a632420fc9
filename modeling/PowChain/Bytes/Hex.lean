import PowChain.Bytes.Basic
import PowChain.Text.Escape

/-!
# Hexadecimal text

Bytes are written as two lowercase hexadecimal digits each.  Reading accepts
either case.  A text of odd length is refused before any digit is looked at;
otherwise the first byte of the text that is not a digit is reported, with
its position counted in bytes.
-/

namespace PowChain
namespace Hex

/-- Why a text is not the hexadecimal form of some bytes. -/
inductive DecodeError where
  /-- A byte of the text that is not a hexadecimal digit, and its position. -/
  | invalidChar (c : Char) (index : Nat)
  /-- The text has an odd number of bytes. -/
  | oddLength
  /-- The text is well formed but does not have the length asked for. -/
  | wrongLength
  deriving DecidableEq, Repr

/-- The sentence that reports a decoding failure. -/
def DecodeError.message : DecodeError → String
  | .invalidChar c i => "Invalid character " ++ Text.quoteChar c ++ " at position " ++ toString i
  | .oddLength => "Odd number of digits"
  | .wrongLength => "Invalid string length"

/-- The digit for a value below sixteen. -/
def digit (n : Nat) : Char :=
  if n < 10 then Char.ofNat (48 + n) else Char.ofNat (87 + n)

/-- Two lowercase digits per byte, most significant digit first. -/
def encode (b : ByteArray) : String :=
  String.ofList (b.toList.flatMap fun x => [digit (x.toNat / 16), digit (x.toNat % 16)])

/-- The value of one hexadecimal digit, given as a byte of the text. -/
def digitValue (b : UInt8) : Option Nat :=
  let n := b.toNat
  if 48 ≤ n ∧ n ≤ 57 then some (n - 48)
  else if 97 ≤ n ∧ n ≤ 102 then some (n - 87)
  else if 65 ≤ n ∧ n ≤ 70 then some (n - 55)
  else none

/-- Decodes digit pairs from a list of text bytes; `pos` is the position of
the first of them. -/
def decodePairs : List UInt8 → Nat → Except DecodeError (List UInt8)
  | hi :: lo :: rest, pos =>
    match digitValue hi with
    | none => .error (.invalidChar (Char.ofNat hi.toNat) pos)
    | some h =>
      match digitValue lo with
      | none => .error (.invalidChar (Char.ofNat lo.toNat) (pos + 1))
      | some l => do
        let tail ← decodePairs rest (pos + 2)
        pure ((h * 16 + l).toUInt8 :: tail)
  | _, _ => .ok []

/-- The bytes written by a hexadecimal text. -/
def decode (s : String) : Except DecodeError ByteArray :=
  let raw := s.toUTF8.toList
  if raw.length % 2 != 0 then .error .oddLength
  else (decodePairs raw 0).map Bytes.ofList

/-- The bytes written by a hexadecimal text that must describe exactly `n` bytes. -/
def decodeExact (s : String) (n : Nat) : Except DecodeError ByteArray :=
  let raw := s.toUTF8.toList
  if raw.length % 2 != 0 then .error .oddLength
  else if raw.length / 2 != n then .error .wrongLength
  else (decodePairs raw 0).map Bytes.ofList

end Hex
end PowChain
