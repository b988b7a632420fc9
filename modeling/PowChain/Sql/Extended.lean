import PowChain.Bytes.Basic

/-!
# Extended precision

The engine reads and writes doubles through the 80-bit extended format of
the x87 unit: a 64-bit significand and a wide exponent.  Reading a decimal
scales its digits by powers of ten in that format before rounding to a
double; writing a double scales it into the range of 64-bit integers the
same way, and its digits are those of the integer part.  Each step rounds
half to even at 64 bits, and that rounding fixes the last digits of both.

A value here is finite and exact: `±mant · 2^exp` with `mant < 2^64`.  The
exponent has no bound, so where the hardware would overflow to an infinity
or underflow to zero the value here goes on; the readers compare with the
largest double before they round, which gives the same results.
-/

namespace PowChain
namespace Sql

/-- `2^k`. -/
def twoPow (k : Nat) : Nat := Nat.pow 2 k

/-- `10^k`. -/
def tenPow (k : Nat) : Nat := Nat.pow 10 k

/-- A positive integer rounded to `bits` significant bits, ties to the even
significand: `(m, s)` with `m · 2^s` the rounded value and `m < 2^bits`. -/
def roundNat (bits n : Nat) : Nat × Int :=
  let len := Nat.log2 n + 1
  if len ≤ bits then (n, 0)
  else
    let s := len - bits
    let q := n / twoPow s
    let r := n % twoPow s
    let half := twoPow (s - 1)
    let q := if r > half || (r == half && q % 2 == 1) then q + 1 else q
    if q == twoPow bits then (q / 2, Int.ofNat s + 1) else (q, Int.ofNat s)

/-- `n / 2^s` rounded to the nearest integer, ties to even. -/
def shiftRound (n s : Nat) : Nat :=
  if s == 0 then n
  else
    let q := n / twoPow s
    let r := n % twoPow s
    let half := twoPow (s - 1)
    if r > half || (r == half && q % 2 == 1) then q + 1 else q

/-- The positive ratio `num / den` rounded to `bits` significant bits, ties
to even: `(m, e)` with `m · 2^e` the rounded value. -/
def roundRatio (bits num den : Nat) : Nat × Int :=
  let k0 : Int := Int.ofNat (Nat.log2 num) - Int.ofNat (Nat.log2 den)
  let atLeast (k : Int) : Bool :=
    if k ≥ 0 then num ≥ den * twoPow k.toNat else num * twoPow (-k).toNat ≥ den
  let k := if atLeast k0 then k0 else k0 - 1
  let sh : Int := Int.ofNat bits - 1 - k
  let (n, d) := if sh ≥ 0 then (num * twoPow sh.toNat, den) else (num, den * twoPow (-sh).toNat)
  let q := n / d
  let r := n % d
  let q := if 2 * r > d || (2 * r == d && q % 2 == 1) then q + 1 else q
  if q == twoPow bits then (q / 2, -sh + 1) else (q, -sh)

/-- A finite number `±mant · 2^exp` of the extended format. -/
structure Extended where
  neg : Bool
  mant : Nat
  exp : Int

namespace Extended

/-- A 64-bit unsigned integer, exactly. -/
def ofNat (n : Nat) : Extended := ⟨false, n, 0⟩

/-- The extended number nearest to `10^k`, as a literal of the format is. -/
def tenTo (k : Int) : Extended :=
  if k ≥ 0 then
    let (m, s) := roundNat 64 (tenPow k.toNat)
    ⟨false, m, s⟩
  else
    let (m, e) := roundRatio 64 1 (tenPow (-k).toNat)
    ⟨false, m, e⟩

/-- The product, rounded to 64 significant bits. -/
def mul (a b : Extended) : Extended :=
  if a.mant == 0 || b.mant == 0 then ⟨a.neg != b.neg, 0, 0⟩
  else
    let (m, s) := roundNat 64 (a.mant * b.mant)
    ⟨a.neg != b.neg, m, a.exp + b.exp + s⟩

/-- Compares the magnitudes of two numbers exactly. -/
def compareAbs (a b : Extended) : Ordering :=
  if a.exp ≥ b.exp then Ord.compare (a.mant * twoPow (a.exp - b.exp).toNat) b.mant
  else Ord.compare a.mant (b.mant * twoPow (b.exp - a.exp).toNat)

/-- The integer part of the magnitude. -/
def truncate (a : Extended) : Nat :=
  if a.exp ≥ 0 then a.mant * twoPow a.exp.toNat else a.mant / twoPow (-a.exp).toNat

/-- The bits of the double nearest to a number, ties to even, with the
gradual underflow of doubles and an infinity past the largest one. -/
def toDouble (a : Extended) : UInt64 :=
  let signBit : Nat := if a.neg then twoPow 63 else 0
  if a.mant == 0 then UInt64.ofNat signBit
  else
    let top : Int := Int.ofNat (Nat.log2 a.mant) + a.exp
    let q : Int := if top ≥ -1022 then top - 52 else -1074
    let m := if a.exp ≥ q then a.mant * twoPow (a.exp - q).toNat else shiftRound a.mant (q - a.exp).toNat
    let (m, q) := if m ≥ twoPow 53 then (m / 2, q + 1) else (m, q)
    if m == 0 then UInt64.ofNat signBit
    else
      let top' : Int := Int.ofNat (Nat.log2 m) + q
      if top' > 1023 then UInt64.ofNat (signBit + 2047 * twoPow 52)
      else if m < twoPow 52 then UInt64.ofNat (signBit + m)
      else UInt64.ofNat (signBit + (top' + 1023).toNat * twoPow 52 + (m - twoPow 52))

/-- A finite double, exactly; an infinity or a NaN gives zero. -/
def ofDouble (bits : UInt64) : Extended :=
  let n := bits.toNat
  let neg := n ≥ twoPow 63
  let e := n / twoPow 52 % 2048
  let f := n % twoPow 52
  if e == 2047 then ⟨neg, 0, 0⟩
  else if e == 0 then ⟨neg, f, -1074⟩
  else ⟨neg, f + twoPow 52, Int.ofNat e - 1075⟩

/-- The largest double, as a literal of the format spells it. -/
def largestDouble : Extended := ⟨false, twoPow 53 - 1, 971⟩

end Extended

end Sql
end PowChain
