import PowChain.Sql.Extended

/-!
# Numbers as text

How the engine reads a number from text, and writes a double as text.

Text is read as a list of code units: the bytes of UTF-8, or the low bytes
of UTF-16 up to the first unit whose high byte is not zero (such text is
never a valid number).  Blanks are space, tab, newline, vertical tab, form
feed and carriage return.

* `readReal` reads an optional sign, digits, a point and digits, an
  exponent, and trailing blanks.  At most about nineteen significant digits
  are kept; later ones only move the point.  The digits, as an integer, are
  scaled by powers of ten in the extended format and rounded to a double.
  Its kind is `1` for a whole text that is an integer, `2` or `3` for a
  whole text with a point or an exponent (`3` for both), `-1` for text
  that starts with a number with a point or a valid exponent and goes on,
  and `0` otherwise.
* `readInteger` reads a 64-bit integer: `0` when the text is one, `1` when
  other text follows it, `2` when it is too large, `3` for exactly `2^63`
  (fine when negative), `-1` without digits.  A value out of range is
  clamped.
* `decodeReal` gives the decimal digits of a double: scaled by powers of
  ten in the extended format into the range from `10^17` to `10^19`, the
  digits are those of the integer part, then rounded at a given place.
  `formatReal` lays them out as `%f`, `%e` or `%g` do.
-/

namespace PowChain
namespace Sql

/-- The smallest and largest 64-bit integers. -/
def minInt : Int := -(Int.ofNat (twoPow 63))
def maxInt : Int := Int.ofNat (twoPow 63) - 1

/-- Whether an integer fits in 64 bits. -/
def fits (i : Int) : Bool := minInt ≤ i && i ≤ maxInt

/-- Whether a code unit is a blank that may surround a number. -/
def isSpaceUnit (b : UInt8) : Bool := b == 32 || (9 ≤ b && b ≤ 13)

/-- Whether a code unit is a decimal digit. -/
def isDigitUnit (b : UInt8) : Bool := 48 ≤ b && b ≤ 57

/-- The units of a text without the blanks at its start. -/
def dropSpaces (l : List UInt8) : List UInt8 := l.dropWhile isSpaceUnit

/-- The largest significand digits are collected into. -/
def significandLimit : Nat := (twoPow 64 - 1 - 9) / 10

/-- The largest significand the exponent is folded into. -/
def foldLimit : Nat := (twoPow 64 - 1 - 2047) / 10

/-- Digits before the point: the significand, the count of digits kept, the
shift of the point for digits dropped, and the rest. -/
def intDigits : List UInt8 → Nat → Nat → Int → Nat × Nat × Int × List UInt8
  | [], s, n, d => (s, n, d, [])
  | b :: rest, s, n, d =>
    if isDigitUnit b then
      let s := s * 10 + (b - 48).toNat
      if s ≥ significandLimit then
        let skipped := rest.takeWhile isDigitUnit
        intDigits (rest.drop skipped.length) s (n + 1) (d + Int.ofNat skipped.length)
      else intDigits rest s (n + 1) d
    else (s, n, d, b :: rest)
termination_by l => l.length
decreasing_by all_goals (simp only [List.length_drop, List.length_cons]; omega)

/-- Digits after the point: kept while the significand has room. -/
def fracDigits : List UInt8 → Nat → Nat → Int → Nat × Nat × Int × List UInt8
  | [], s, n, d => (s, n, d, [])
  | b :: rest, s, n, d =>
    if isDigitUnit b then
      if s < significandLimit then fracDigits rest (s * 10 + (b - 48).toNat) (n + 1) (d - 1)
      else fracDigits rest s n d
    else (s, n, d, b :: rest)

/-- The digits of an exponent, the value capped at 10000. -/
def expDigits : List UInt8 → Nat → Bool → Nat × Bool × List UInt8
  | [], e, ok => (e, ok, [])
  | b :: rest, e, ok =>
    if isDigitUnit b then expDigits rest (if e < 10000 then e * 10 + (b - 48).toNat else 10000) true
    else (e, ok, b :: rest)

/-- Multiplies `r` by `step` while `e` is at least `size`, taking `size` off
`e` each time. -/
def scaleDown (size : Nat) (step : Extended) : Nat → Extended → Nat → Extended × Nat
  | 0, r, e => (r, e)
  | fuel + 1, r, e => if e ≥ size then scaleDown size step fuel (r.mul step) (e - size) else (r, e)

/-- The double of a significand `s` times `10^e`, scaled in the extended
format; past the largest double it is an infinity.  Beyond `10^400` either
way the result is settled without scaling: an infinity, or zero. -/
def scaleToDouble (s : Nat) (e : Int) : UInt64 :=
  if e == 0 then (Extended.ofNat s).toDouble
  else if e > 400 then UInt64.ofNat (2047 * twoPow 52)
  else if e < -400 then 0
  else
    let r := Extended.ofNat s
    let r :=
      if e > 0 then
        let (r, k) := scaleDown 100 (Extended.tenTo 100) 8 r e.toNat
        let (r, k) := scaleDown 10 (Extended.tenTo 10) 12 r k
        (scaleDown 1 (Extended.tenTo 1) 12 r k).1
      else
        let (r, k) := scaleDown 100 (Extended.tenTo (-100)) 8 r (-e).toNat
        let (r, k) := scaleDown 10 (Extended.tenTo (-10)) 12 r k
        (scaleDown 1 (Extended.tenTo (-1)) 12 r k).1
    if r.compareAbs Extended.largestDouble == .gt then UInt64.ofNat (2047 * twoPow 52)
    else r.toDouble

/-- Folds the exponent into the significand: up while it has room, down
while it ends in a zero. -/
def foldExponent : Nat → Nat → Int → Nat × Int
  | 0, s, e => (s, e)
  | fuel + 1, s, e =>
    if e > 0 && s < foldLimit then foldExponent fuel (s * 10) (e - 1)
    else if e < 0 && s % 10 == 0 then foldExponent fuel (s / 10) (e + 1)
    else (s, e)

/-- Reads a double from code units; `kind0` is `1`, or `-100` for UTF-16
text with a unit past one byte. -/
def readRealUnits (units : List UInt8) (kind0 : Int) : Int × UInt64 :=
  let l := dropSpaces units
  if l.isEmpty then (0, 0)
  else
    let (negative, l) := match l with
      | 45 :: rest => (true, rest)
      | 43 :: rest => (false, rest)
      | _ => (false, l)
    let (s, n, d, l) := intDigits l 0 0 0
    -- the state after the significand: kind, validity of an exponent, rest
    let (s, n, d, kind, l) := match l with
      | 46 :: rest =>
        let (s, n, d, rest) := fracDigits rest s n d
        (s, n, d, kind0 + 1, rest)
      | _ => (s, n, d, kind0, l)
    let (e, eValid, kind, l) := match l with
      | b :: rest =>
        if b == 101 || b == 69 then
          match rest with
          | [] => ((0 : Int), false, kind + 1, ([] : List UInt8))
          | _ =>
            let (eneg, rest) := match rest with
              | 45 :: r => (true, r)
              | 43 :: r => (false, r)
              | _ => (false, rest)
            let (ev, ok, rest) := expDigits rest 0 false
            ((if eneg then -(Int.ofNat ev) else Int.ofNat ev), ok, kind + 1, dropSpaces rest)
        else (0, true, kind, dropSpaces (b :: rest))
      | [] => (0, true, kind, [])
    let bits :=
      if s == 0 then (0 : UInt64)
      else
        let (s', e') := foldExponent 64 s (e + d)
        scaleToDouble s' e'
    let bits := if negative then bits ^^^ UInt64.ofNat (twoPow 63) else bits
    let kindOut : Int :=
      if l.isEmpty && n > 0 && eValid && kind > 0 then kind
      else if kind ≥ 2 && (kind == 3 || eValid) && n > 0 then -1
      else 0
    (kindOut, bits)

/-- Whether the digits of a 19-digit text are below, equal to or above
`9223372036854775808`. -/
def compareTwoPow63 (digits : List UInt8) : Ordering :=
  Ord.compare ((digits.take 19).map (·.toNat)) ("9223372036854775808".toUTF8.toList.map (·.toNat))

/-- Reads a 64-bit integer from code units; `wide` marks UTF-16 text with a
unit past one byte. -/
def readIntegerUnits (units : List UInt8) (wide : Bool) : Int × Int :=
  let l := dropSpaces units
  let (negative, l) := match l with
    | 45 :: rest => (true, rest)
    | 43 :: rest => (false, rest)
    | _ => (false, l)
  let hadZeros := (l.takeWhile (· == 48)).length
  let l := l.drop hadZeros
  let digits := l.takeWhile isDigitUnit
  let after := l.drop digits.length
  let u := digits.foldl (fun acc b => (acc * 10 + (b - 48).toNat) % twoPow 64) 0
  let value : Int :=
    if u > twoPow 63 - 1 then (if negative then minInt else maxInt)
    else if negative then -(Int.ofNat u) else Int.ofNat u
  let rc : Int :=
    if digits.isEmpty && hadZeros == 0 then -1
    else if wide then 1
    else if !after.all isSpaceUnit then 1
    else 0
  if digits.length < 19 then (rc, value)
  else
    let c := if digits.length > 19 then Ordering.gt else compareTwoPow63 digits
    match c with
    | .lt => (rc, value)
    | .gt => (2, if negative then minInt else maxInt)
    | .eq => if negative then (rc, minInt) else (3, maxInt)

/-- The code units of UTF-8 text. -/
def utf8Units (b : ByteArray) : List UInt8 := b.toList

/-- Reads a double from UTF-8 text: the kind of text and the double. -/
def readReal (b : ByteArray) : Int × UInt64 := readRealUnits (utf8Units b) 1

/-- Reads a 64-bit integer from UTF-8 text: the outcome and the value. -/
def readInteger (b : ByteArray) : Int × Int := readIntegerUnits (utf8Units b) false

/-! ## Writing doubles -/

/-- The decimal digits of a double: its sign, whether it is an infinity
(`1`) or a NaN (`2`), the digits without trailing zeros, and the place of
the point (the number is `0.d1d2... · 10^point`). -/
structure Decoded where
  negative : Bool
  special : Nat
  digits : List Nat
  point : Int

/-- The decimal digits of a natural number. -/
def natDigits (n : Nat) : List Nat := (toString n).toList.map fun c => c.toNat - 48

/-- Multiplies by `step` while the number is at least `bound`, adding `size`
to the exponent each time. -/
def scaleWhileAbove (bound step : Extended) (size : Int) : Nat → Extended × Int → Extended × Int
  | 0, acc => acc
  | fuel + 1, (r, k) =>
    if r.compareAbs bound != .lt then scaleWhileAbove bound step size fuel (r.mul step, k + size) else (r, k)

/-- Multiplies by `step` while the number is below `bound`, taking `size`
off the exponent each time. -/
def scaleWhileBelow (bound step : Extended) (size : Int) : Nat → Extended × Int → Extended × Int
  | 0, acc => acc
  | fuel + 1, (r, k) =>
    if r.compareAbs bound == .lt then scaleWhileBelow bound step size fuel (r.mul step, k - size) else (r, k)

/-- Adds one to the last of some digits, carrying: the digits and whether a
new leading digit was needed. -/
def bumpDigits (ds : List Nat) : List Nat × Bool :=
  let (out, carry) := ds.reverse.foldl (fun (acc : List Nat × Bool) d =>
    let (done, carry) := acc
    if carry then (if d == 9 then (0 :: done, true) else ((d + 1) :: done, false))
    else (d :: done, false)) ([], true)
  if carry then (1 :: out, true) else (out, false)

/-- Drops the trailing zeros of digits. -/
def dropTrailingZeros (ds : List Nat) : List Nat := (ds.reverse.dropWhile (· == 0)).reverse

/-- The digits of a double, rounded at place `round` (a count of significant
digits when positive; when zero or less, a count of digits after the point
taken from its negation), never keeping more than `most`. -/
def decodeReal (bits : UInt64) (round : Int) (most : Nat) : Decoded :=
  let n := bits.toNat
  let negative := n ≥ twoPow 63
  let mag := n % twoPow 63
  if mag == 0 then { negative := false, special := 0, digits := [0], point := 1 }
  else if mag / twoPow 52 == 2047 then
    { negative, special := if mag == 2047 * twoPow 52 then 1 else 2, digits := [], point := 0 }
  else
    let r := (Extended.ofDouble (UInt64.ofNat mag))
    let (r, k) :=
      if r.compareAbs (Extended.ofNat (tenPow 19)) != .lt then
        let acc := scaleWhileAbove (Extended.tenTo 119) (Extended.tenTo (-100)) 100 40 (r, 0)
        let acc := scaleWhileAbove (Extended.tenTo 29) (Extended.tenTo (-10)) 10 40 acc
        scaleWhileAbove (Extended.tenTo 19) (Extended.tenTo (-1)) 1 40 acc
      else
        let acc := scaleWhileBelow (Extended.tenTo (-97)) (Extended.tenTo 100) 100 40 (r, 0)
        let acc := scaleWhileBelow (Extended.tenTo 7) (Extended.tenTo 10) 10 40 acc
        scaleWhileBelow (Extended.tenTo 17) (Extended.tenTo 1) 1 40 acc
    let ds := natDigits r.truncate
    let point : Int := Int.ofNat ds.length + k
    -- a place at or before the first digit rounds on that digit
    let (round, ds, point) :=
      if round ≤ 0 then
        let rd := point - round
        if rd == 0 && (ds.headD 0) ≥ 5 then ((1 : Int), 0 :: ds, point + 1) else (rd, ds, point)
      else (round, ds, point)
    let (ds, point) :=
      if round > 0 && (round < Int.ofNat ds.length || ds.length > most) then
        let keep := if round > Int.ofNat most then most else round.toNat
        let kept := ds.take keep
        if (ds.getD keep 0) ≥ 5 then
          let (bumped, grew) := bumpDigits kept
          if grew then (bumped.take (keep + 1), point + 1) else (bumped, point)
        else (kept, point)
      else (ds, point)
    { negative, special := 0, digits := dropTrailingZeros ds, point }

/-- How a double is laid out: `%f`, `%e` or `%g`. -/
inductive RealStyle where
  | fixed
  | exponent
  | general
  deriving DecidableEq

/-- The flags of a conversion that lays out a double. -/
structure RealFlags where
  /-- `+` or a space before a number that is not negative. -/
  signChar : Option Char := none
  /-- `#`: keep the point and the trailing zeros. -/
  alternate : Bool := false
  /-- `!`: up to 26 digits, a point always. -/
  alternate2 : Bool := false
  /-- `0`: pad with zeros after the sign up to the width. -/
  zeroPad : Bool := false
  leftJustify : Bool := false
  /-- `,`: commas between groups of three digits before the point. -/
  thousands : Bool := false
  /-- Capital letters (`%E`, `%G`). -/
  capital : Bool := false

/-- Inserts a comma before each group of three digits counted back from the
last of `whole`. -/
def groupThousands (whole : List Char) : List Char :=
  let n := whole.length
  (whole.zipIdx.flatMap fun (c, i) =>
    let left := n - 1 - i
    if left > 0 && left % 3 == 0 then [c, ','] else [c])

/-- A double laid out by a conversion of the given style, precision (`none`
for the default of six), flags and width, as the engine's formatter does. -/
def formatReal (bits : UInt64) (style : RealStyle) (precision : Option Nat) (flags : RealFlags)
    (width : Nat) : String :=
  let precision : Nat := precision.getD 6
  let round : Int := match style with
    | .fixed => -(Int.ofNat precision)
    | .general => if precision == 0 then 1 else Int.ofNat precision
    | .exponent => Int.ofNat precision + 1
  let precision := if style == .general && precision == 0 then 1 else precision
  let d := decodeReal bits round (if flags.alternate2 then 26 else 16)
  if d.special == 2 then (if flags.zeroPad then "null" else "NaN")
  else if d.special == 1 && !flags.zeroPad then
    if d.negative then "-Inf"
    else match flags.signChar with
      | some c => String.singleton c ++ "Inf"
      | none => "Inf"
  else
    let d := if d.special == 1 then { d with digits := [9], point := 1000 } else d
    let pre : Option Char := if d.negative then some '-' else flags.signChar
    let exp10 : Int := d.point - 1
    let precision := if style == .general && precision > 0 then precision - 1 else precision
    let (asExp, precision, trimZeros) : Bool × Nat × Bool :=
      if style == .general then
        if exp10 < -4 || exp10 > Int.ofNat precision then (true, precision, !flags.alternate)
        else (false, (Int.ofNat precision - exp10).toNat, !flags.alternate)
      else (style == .exponent, precision, flags.alternate2)
    let e2 : Int := if asExp then 0 else d.point - 1
    let digitAt (j : Nat) : Char := Char.ofNat (48 + d.digits.getD j 0)
    let showPoint := precision > 0 || flags.alternate || flags.alternate2
    -- digits before the point
    let (whole, used) : List Char × Nat :=
      if e2 < 0 then (['0'], 0)
      else
        let k := e2.toNat + 1
        ((List.range k).map fun j => if j < d.digits.length then digitAt j else '0', k)
    let whole := if flags.thousands && e2 > 0 then groupThousands whole else whole
    -- zeros after the point before the first digit, then the digits
    let lead := if e2 < -1 then min ((-e2).toNat - 1) precision else 0
    let rest := precision - lead
    let frac := List.replicate lead '0' ++
      (List.range rest).map fun j => if used + j < d.digits.length then digitAt (used + j) else '0'
    let body := whole ++ (if showPoint then '.' :: frac else [])
    let body :=
      if trimZeros && showPoint then
        let t := (body.reverse.dropWhile (· == '0')).reverse
        if t.getLast? == some '.' then (if flags.alternate2 then t ++ ['0'] else t.dropLast) else t
      else body
    let suffix : List Char :=
      if asExp then
        let x := d.point - 1
        let ds := natDigits x.natAbs
        let ds := if ds.length < 2 then 0 :: ds else ds
        (if flags.capital then 'E' else 'e') :: (if x < 0 then '-' else '+') ::
          ds.map fun n => Char.ofNat (48 + n)
      else []
    let text := (match pre with
      | some c => [c]
      | none => []) ++ body ++ suffix
    if flags.zeroPad && !flags.leftJustify && text.length < width then
      let pad := List.replicate (width - text.length) '0'
      match pre with
      | some c => String.ofList (c :: pad ++ text.drop 1)
      | none => String.ofList (pad ++ text)
    else String.ofList text

/-- The text of a double as the engine writes it in a value: fifteen
significant digits, a point always (`%!.15g`). -/
def realText (bits : UInt64) : String :=
  formatReal bits .general (some 15) { alternate2 := true } 0

end Sql
end PowChain
