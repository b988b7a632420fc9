/-!
# Shortest decimal form of a binary64 number

A finite double `m · 2^e` stands for every real that rounds to it: the
interval reaching halfway to its two neighbours, ends included when `m` is
even.  Its shortest decimal form is found by trying one, two, … seventeen
significant digits: for each length the two grid points around the value are
tested, and the first length with a point inside the interval wins; of two
such points the nearer one is taken, an exact tie going to the even digit.

`Shortest.render` writes the digits the way diagnostics show a float:
positional for decimal exponents from −5 to 16 (with `.0` for an integer),
otherwise one digit, a point, the rest and a signed exponent.
`Shortest.renderPlain` always writes them positionally, with `.0` for an
integer.
-/

namespace PowChain
namespace Shortest

/-- The parts of a finite binary64 value: sign, integer significand `m` and
binary exponent `e`, with value `m · 2^e`, and whether the gap below is half
the gap above (the value is the lowest of its binade). -/
structure Parts where
  negative : Bool
  m : Nat
  e : Int
  lowerHalf : Bool

/-- Decodes the bits of a double; none for infinities and NaN. -/
def Parts.ofBits (bits : UInt64) : Option Parts :=
  let b : Nat := bits.toNat
  let negative := b / Nat.pow 2 63 % 2 == 1
  let expField : Nat := b / Nat.pow 2 52 % Nat.pow 2 11
  let frac : Nat := b % Nat.pow 2 52
  if expField == 2047 then none
  else if expField == 0 then some ⟨negative, frac, -1074, false⟩
  else some ⟨negative, frac + Nat.pow 2 52, (expField : Int) - 1075, frac == 0 && expField > 1⟩

/-- An exact non-negative rational `num / den`. -/
structure Ratio where
  num : Nat
  den : Nat

/-- `c · 10^k` compared with a ratio. -/
def cmpScaled (c : Nat) (k : Int) (r : Ratio) : Ordering :=
  if k ≥ 0 then compare (c * Nat.pow 10 k.toNat * r.den) r.num
  else compare (c * r.den) (r.num * Nat.pow 10 (-k).toNat)

/-- `⌊r / 10^k⌋`. -/
def floorScaled (r : Ratio) (k : Int) : Nat :=
  if k ≥ 0 then r.num / (r.den * Nat.pow 10 k.toNat) else r.num * Nat.pow 10 (-k).toNat / r.den

/-- The decimal exponent `k` with `10^k ≤ r < 10^(k+1)`, for `r > 0`;
searched within `bound` steps. -/
def log10 (r : Ratio) : Nat → Int → Int
  | 0, k => k
  | fuel + 1, k =>
    if cmpScaled 1 k r == .gt then log10 r fuel (k - 1)
    else if cmpScaled 1 (k + 1) r != .gt then log10 r fuel (k + 1)
    else k

/-- The shortest digits and decimal exponent of a positive value `m · 2^e`:
`(c, k)` stands for `c · 10^k`. -/
def digits (p : Parts) : Nat × Int :=
  -- The value, and the ends of its rounding interval, over one denominator.
  let scale := if p.e ≥ 2 then Nat.pow 2 (p.e - 2).toNat else 1
  let den := if p.e ≥ 2 then 1 else Nat.pow 2 (2 - p.e).toNat
  let v : Ratio := ⟨4 * p.m * scale, den⟩
  let hi : Ratio := ⟨(4 * p.m + 2) * scale, den⟩
  let lo : Ratio := ⟨(4 * p.m - (if p.lowerHalf then 1 else 2)) * scale, den⟩
  let inclusive := p.m % 2 == 0
  let inside (c : Nat) (k : Int) : Bool :=
    let a := cmpScaled c k lo
    let b := cmpScaled c k hi
    (a == .gt || (inclusive && a == .eq)) && (b == .lt || (inclusive && b == .eq))
  let top := log10 v 700 0
  let rec search : Nat → Nat → Nat × Int
    | 0, _ => (floorScaled v (top - 16), top - 16)
    | fuel + 1, len =>
      let k := top - (len : Int) + 1
      let c0 := floorScaled v k
      let c1 := c0 + 1
      match inside c0 k, inside c1 k with
      | true, true =>
        -- the nearer of the two; a tie goes to the even one
        let d0 := if k ≥ 0 then v.num * 1 - c0 * Nat.pow 10 k.toNat * v.den else v.num * Nat.pow 10 (-k).toNat - c0 * v.den
        let d1 := if k ≥ 0 then c1 * Nat.pow 10 k.toNat * v.den - v.num else c1 * v.den - v.num * Nat.pow 10 (-k).toNat
        if d0 < d1 || (d0 == d1 && c0 % 2 == 0) then (c0, k) else (c1, k)
      | true, false => (c0, k)
      | false, true => (c1, k)
      | false, false => search fuel (len + 1)
  search 17 1

/-- Drops trailing zero digits, raising the exponent. -/
def trim (c : Nat) (k : Int) : Nat → Nat × Int
  | 0 => (c, k)
  | fuel + 1 => if c != 0 && c % 10 == 0 then trim (c / 10) (k + 1) fuel else (c, k)

/-- The text of a finite double, given by its bits. -/
def render (bits : UInt64) : String :=
  match Parts.ofBits bits with
  | none =>
    if bits.toNat % Nat.pow 2 52 != 0 then "NaN"
    else if bits.toNat / Nat.pow 2 63 == 1 then "-inf" else "inf"
  | some p =>
    let sign := if p.negative then "-" else ""
    if p.m == 0 then sign ++ "0.0"
    else
      let (c0, k0) := digits p
      let (c, k) := trim c0 k0 20
      let s := toString c
      let n : Int := s.length
      let kk := n + k
      let body :=
        if 0 ≤ k ∧ kk ≤ 16 then s ++ String.ofList (List.replicate k.toNat '0') ++ ".0"
        else if 0 < kk ∧ kk ≤ 16 then
          String.ofList (s.toList.take kk.toNat) ++ "." ++ String.ofList (s.toList.drop kk.toNat)
        else if -5 < kk ∧ kk ≤ 0 then "0." ++ String.ofList (List.replicate (-kk).toNat '0') ++ s
        else
          let e := kk - 1
          let expText := (if e < 0 then "-" else "+") ++ toString e.natAbs
          if n == 1 then s ++ "e" ++ expText
          else String.ofList (s.toList.take 1) ++ "." ++ String.ofList (s.toList.drop 1) ++ "e" ++ expText
      sign ++ body

/-- The positional text of a double, given by its bits: the shortest digits
without an exponent, `.0` after an integer. -/
def renderPlain (bits : UInt64) : String :=
  match Parts.ofBits bits with
  | none =>
    if bits.toNat % Nat.pow 2 52 != 0 then "NaN"
    else if bits.toNat / Nat.pow 2 63 == 1 then "-inf" else "inf"
  | some p =>
    let sign := if p.negative then "-" else ""
    if p.m == 0 then sign ++ "0.0"
    else
      let (c0, k0) := digits p
      let (c, k) := trim c0 k0 20
      let s := toString c
      let kk : Int := (s.length : Int) + k
      let body :=
        if 0 ≤ k then s ++ String.ofList (List.replicate k.toNat '0') ++ ".0"
        else if 0 < kk then
          String.ofList (s.toList.take kk.toNat) ++ "." ++ String.ofList (s.toList.drop kk.toNat)
        else "0." ++ String.ofList (List.replicate (-kk).toNat '0') ++ s
      sign ++ body

end Shortest
end PowChain
