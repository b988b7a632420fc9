import PowChain.Bytes.Basic

/-!
# UTF-8 validation

Checks bytes for well-formed UTF-8 and, on failure, reports where the valid
prefix ends and how long the offending sequence is: the length of the
maximal prefix of a valid sequence (one to three bytes), or nothing when the
input ends inside a sequence that could still have been completed.  Lossy
decoding replaces each such offending sequence by U+FFFD.
-/

namespace PowChain
namespace Utf8

/-- A fault in UTF-8 bytes. -/
structure Fault where
  /-- Length of the valid prefix. -/
  validUpTo : Nat
  /-- Length of the invalid sequence; `none` if the input ended in the middle
  of a sequence. -/
  errorLen : Option Nat
  deriving DecidableEq, Repr

/-- The sentence that reports a fault. -/
def Fault.message (f : Fault) : String :=
  match f.errorLen with
  | some n => s!"invalid utf-8 sequence of {n} bytes from index {f.validUpTo}"
  | none => s!"incomplete utf-8 byte sequence from index {f.validUpTo}"

@[inline] def isCont (b : UInt8) : Bool := 0x80 ≤ b && b ≤ 0xbf

/-- The range allowed for the second byte after a lead byte of a three- or
four-byte sequence. -/
def secondRange (lead : UInt8) : UInt8 × UInt8 :=
  if lead == 0xe0 then (0xa0, 0xbf)
  else if lead == 0xed then (0x80, 0x9f)
  else if lead == 0xf0 then (0x90, 0xbf)
  else if lead == 0xf4 then (0x80, 0x8f)
  else (0x80, 0xbf)

/-- The length, less one, of the sequence that starts the list, or how it
fails: `.error (some n)` for an invalid sequence of `n` bytes, `.error none`
for one cut off by the end. -/
def step : List UInt8 → Except (Option Nat) Nat
  | [] => .ok 0
  | b :: rest =>
    if b < 0x80 then .ok 0
    else
      let width := if 0xc2 ≤ b && b ≤ 0xdf then 2
        else if 0xe0 ≤ b && b ≤ 0xef then 3
        else if 0xf0 ≤ b && b ≤ 0xf4 then 4 else 0
      if width == 0 then .error (some 1)
      else
        let (lo, hi) := if width == 2 then ((0x80 : UInt8), (0xbf : UInt8)) else secondRange b
        match rest with
        | [] => .error none
        | c1 :: rest1 =>
          if !(lo ≤ c1 && c1 ≤ hi) then .error (some 1)
          else if width == 2 then .ok 1
          else match rest1 with
            | [] => .error none
            | c2 :: rest2 =>
              if !isCont c2 then .error (some 2)
              else if width == 3 then .ok 2
              else match rest2 with
                | [] => .error none
                | c3 :: _ => if isCont c3 then .ok 3 else .error (some 3)

/-- The first fault in a list of bytes, `pos` being the offset of its head. -/
def firstFault (l : List UInt8) (pos : Nat) : Option Fault :=
  match l with
  | [] => none
  | b :: rest =>
    match step (b :: rest) with
    | .error e => some ⟨pos, e⟩
    | .ok n => firstFault (rest.drop n) (pos + n + 1)
termination_by l.length
decreasing_by simp only [List.length_drop, List.length_cons]; omega

/-- The first fault of some bytes, if any. -/
def check (b : ByteArray) : Option Fault := firstFault b.toList 0

/-- The text of well-formed UTF-8 bytes. -/
def decode (b : ByteArray) : Except Fault String :=
  match check b with
  | some f => .error f
  | none => .ok ((String.fromUTF8? b).getD "")

/-- Lossy decoding of a list of bytes onto `acc`: each valid sequence gives
its character, each offending sequence one U+FFFD, and a sequence cut off by
the end one U+FFFD. -/
def lossyAux (l : List UInt8) (acc : String) : String :=
  match l with
  | [] => acc
  | b :: rest =>
    match step (b :: rest) with
    | .ok n =>
      let piece := (String.fromUTF8? (Bytes.ofList ((b :: rest).take (n + 1)))).getD ""
      lossyAux (rest.drop n) (acc ++ piece)
    | .error (some k) => lossyAux (rest.drop (k - 1)) (acc.push '\uFFFD')
    | .error none => acc.push '\uFFFD'
termination_by l.length
decreasing_by all_goals (simp only [List.length_drop, List.length_cons]; omega)

/-- The text of some bytes, offending sequences replaced by U+FFFD. -/
def lossy (b : ByteArray) : String := lossyAux b.toList ""

end Utf8
end PowChain
