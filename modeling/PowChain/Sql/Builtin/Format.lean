import PowChain.Sql.Builtin.Text

/-!
# `printf` and `format`

`format(f, args...)` lays its arguments out by the conversions of the
format text `f`, read up to its first NUL.  A conversion is

    % flags width .precision l conversion

with the flags `-` (pad on the right), `+` and space (a sign for numbers
that are not negative), `#` (alternate form), `!` (widths and precisions in
characters, a point always in doubles), `0` (pad with zeros) and `,`
(thousands separators); a width or precision `*` takes the next argument.

* `d i u`: decimal integers (`u` of the 64-bit word); `x X o p`:
  hexadecimal and octal words; `r`: ordinals (`1st`, `22nd`).
* `f e E g G`: doubles, laid out as in `formatReal`.
* `s z`: texts; `q Q w`: texts with quotes doubled (`Q` in quotes, `NULL`
  for null).  `c`: the first character of a text, repeated `precision`
  times.  `%%` is a percent sign, `n` writes nothing.

Arguments are read as the conversion needs them: integers as
`Value.intValue`, doubles as `Value.realValue`, texts as their text; a
missing argument is zero or null.  An unknown conversion ends the output
where it stands.  The result is null when nothing was written at all, and
when the text would reach a billion bytes.
-/

namespace PowChain
namespace Sql
namespace Format

/-- The flags, width and precision of a conversion. -/
structure Spec where
  leftJustify : Bool := false
  /-- `+` or a space, before a number that is not negative. -/
  signChar : Option UInt8 := none
  alternate : Bool := false
  alternate2 : Bool := false
  zeroPad : Bool := false
  thousands : Bool := false
  width : Nat := 0
  precision : Option Nat := none

/-- The longest text a value may have, in bytes. -/
def maxLength : Nat := 1000000000

/-- The largest precision a double is laid out with. -/
def maxRealPrecision : Nat := 100000000

/-- Whether a byte is a decimal digit. -/
def isDigitByte (b : UInt8) : Bool := 48 ≤ b && b ≤ 57

/-- The number of a run of digits, as the 31 low bits of a 32-bit word. -/
def digitsValue (ds : List UInt8) : Nat :=
  ds.foldl (fun acc d => (acc * 10 + (d - 48).toNat) % twoPow 32) 0 % twoPow 31

/-- The next argument as an integer, zero when there is none. -/
def nextInt : List Value → Int × List Value
  | v :: rest => (v.intValue, rest)
  | [] => (0, [])

/-- The next argument as a double, zero when there is none. -/
def nextReal : List Value → UInt64 × List Value
  | v :: rest => (v.realValue, rest)
  | [] => (0, [])

/-- The next argument as a text read up to its first NUL, `none` for null or
when there is none. -/
def nextText : List Value → Option (List UInt8) × List Value
  | v :: rest => (v.render.map fun b => Text.untilNul b.toList, rest)
  | [] => (none, [])

/-- Reads the flags, width and precision of a conversion from its first
character `c` on: the spec, the conversion character (`0` when the format
ends first), the format after it and the arguments left. -/
def readSpec : Nat → Spec → UInt8 → List UInt8 → List Value →
    Spec × UInt8 × List UInt8 × List Value
  | 0, s, c, rest, args => (s, c, rest, args)
  | fuel + 1, s, c, rest, args =>
    let step (s : Spec) (rest : List UInt8) (args : List Value) :=
      match rest with
      | d :: more => readSpec fuel s d more args
      | [] => (s, 0, [], args)
    -- after a width or precision, `.` and `l` go on; anything else ends
    let stopUnless (dots : Bool) (s : Spec) (rest : List UInt8) (args : List Value) :=
      match rest with
      | d :: more =>
        if (dots && d == 46) || d == 108 then readSpec fuel s d more args else (s, d, more, args)
      | [] => (s, 0, [], args)
    if c == 45 then step { s with leftJustify := true } rest args
    else if c == 43 then step { s with signChar := some 43 } rest args
    else if c == 32 then step { s with signChar := some 32 } rest args
    else if c == 35 then step { s with alternate := true } rest args
    else if c == 33 then step { s with alternate2 := true } rest args
    else if c == 48 then step { s with zeroPad := true } rest args
    else if c == 44 then step { s with thousands := true } rest args
    else if c == 108 then
      match rest with
      | 108 :: d :: more => (s, d, more, args)
      | d :: more => if d == 108 then (s, 0, [], args) else (s, d, more, args)
      | [] => (s, 0, [], args)
    else if isDigitByte c && c != 48 then
      let ds := c :: rest.takeWhile isDigitByte
      stopUnless true { s with width := digitsValue ds } (rest.dropWhile isDigitByte) args
    else if c == 42 then
      let (w, args) := nextInt args
      let w := Text.toInt32 w
      let s := if w < 0 then { s with leftJustify := true, width := (if w ≥ -2147483647 then -w else 0).toNat }
        else { s with width := w.toNat }
      stopUnless true s rest args
    else if c == 46 then
      match rest with
      | 42 :: more =>
        let (p, args) := nextInt args
        let p := Text.toInt32 p
        let precision := if p < 0 then (if p ≥ -2147483647 then some (-p).toNat else none) else some p.toNat
        stopUnless false { s with precision } more args
      | _ =>
        let ds := rest.takeWhile isDigitByte
        stopUnless false { s with precision := some (digitsValue ds) } (rest.dropWhile isDigitByte) args
    else (s, c, rest, args)

/-- The digits of a number in a base, most significant first, at least one. -/
def baseDigits (base : Nat) (upper : Bool) (n : Nat) : List UInt8 :=
  let digit (d : Nat) : UInt8 :=
    (if d < 10 then 48 + d else if upper then 55 + d else 87 + d).toUInt8
  if base < 2 then [48]
  else (Nat.toDigits base n).map fun c => digit (if c.isDigit then c.toNat - 48 else c.toNat - 87)

/-- Inserts a comma before each group of three, counted from the right. -/
def commaGroups (ds : List UInt8) : List UInt8 :=
  let n := ds.length
  ds.zipIdx.flatMap fun (d, i) =>
    let left := n - 1 - i
    if left > 0 && left % 3 == 0 then [d, 44] else [d]

/-- The suffix of an ordinal number. -/
def ordinalSuffix (n : Nat) : List UInt8 :=
  let x := n % 10
  let x := if x ≥ 4 || (n / 10) % 10 == 1 then 0 else x
  match x with
  | 1 => [115, 116]
  | 2 => [110, 100]
  | 3 => [114, 100]
  | _ => [116, 104]

/-- How an integer conversion lays out its number. -/
structure IntegerStyle where
  signed : Bool
  base : Nat
  upper : Bool := true
  ordinal : Bool := false
  /-- What `#` puts in front of a number that is not zero. -/
  alternatePrefix : List UInt8 := []
  /-- Whether `,` may group the digits. -/
  groups : Bool := false

/-- An integer laid out by an integer conversion, before the padding to
the width. -/
def formatInteger (s : Spec) (st : IntegerStyle) (v : Int) : List UInt8 :=
  let (mag, sign) : Nat × Option UInt8 :=
    if st.signed then (if v < 0 then (v.natAbs, some 45) else (v.toNat, s.signChar))
    else ((v % Int.ofNat (twoPow 64)).toNat, none)
  let signWidth : Nat := if sign.isSome then 1 else 0
  let precision : Nat := s.precision.getD 0
  let precision :=
    if s.zeroPad && (s.precision.map (fun p => decide (p + signWidth < s.width))).getD (decide (signWidth < s.width)) then
      s.width - signWidth
    else precision
  let body := baseDigits st.base st.upper mag ++ (if st.ordinal then ordinalSuffix mag else [])
  let body := List.replicate (precision - body.length) 48 ++ body
  let body := if st.groups && s.thousands then commaGroups body else body
  let body := (match sign with
    | some c => [c]
    | none => []) ++ body
  if s.alternate && mag != 0 then st.alternatePrefix ++ body else body

/-- The number of continuation bytes among bytes, by which a width counted
in characters grows. -/
def continuationCount (b : List UInt8) : Nat := (b.filter Text.isContinuation).length

/-- A text with its quote characters doubled, up to `precision` bytes (or
characters, with `!`). -/
def escapeText (s : Spec) (q : UInt8) : Nat → Option Nat → List UInt8 → List UInt8
  | 0, _, _ => []
  | _, _, [] => []
  | fuel + 1, k, b :: rest =>
    if k == some 0 then []
    else
      let (tail, more) :=
        if s.alternate2 && b.toNat ≥ 0xC0 then (rest.takeWhile Text.isContinuation, rest.dropWhile Text.isContinuation)
        else ([], rest)
      let here := (if b == q then [b, b] else [b]) ++ tail
      here ++ escapeText s q fuel (k.map (· - 1)) more

/-- The output of one conversion: the bytes to append and the arguments
left; `none` for a conversion that ends the output, `some none` inside
when the output grows too long. -/
def convert (s : Spec) (c : UInt8) (args : List Value) :
    Option (Option (List UInt8) × List Value) :=
  -- pads a piece to the width, in bytes, on the side the flags ask
  let pad (width : Int) (piece : List UInt8) : Option (List UInt8) :=
    let gap := width - piece.length
    if width ≥ maxLength then none
    else if gap > 0 then
      let sp := List.replicate gap.toNat (32 : UInt8)
      some (if s.leftJustify then piece ++ sp else sp ++ piece)
    else some piece
  let widthFor (piece : List UInt8) : Int :=
    if s.alternate2 && s.width > 0 then s.width + continuationCount piece else s.width
  let integer (st : IntegerStyle) :=
    let (v, args) := nextInt args
    if (s.precision.getD 0) ≥ maxLength || s.width ≥ maxLength then some (none, args)
    else some (pad s.width (formatInteger s st v), args)
  let real (style : RealStyle) (capital : Bool) :=
    let (bits, args) := nextReal args
    let flags : RealFlags :=
      { signChar := s.signChar.map (fun b => Char.ofNat b.toNat)
        alternate := s.alternate
        alternate2 := s.alternate2
        zeroPad := s.zeroPad
        leftJustify := s.leftJustify
        thousands := s.thousands
        capital := capital }
    let precision := s.precision.map (min maxRealPrecision)
    if s.width ≥ maxLength then some (none, args)
    else some (pad s.width (formatReal bits style precision flags s.width).toUTF8.toList, args)
  if c == 100 || c == 105 then integer { signed := true, base := 10, groups := true }
  else if c == 117 then integer { signed := false, base := 10, groups := true }
  else if c == 114 then integer { signed := true, base := 10, ordinal := true }
  else if c == 120 then integer { signed := false, base := 16, upper := false, alternatePrefix := [48, 120] }
  else if c == 88 then integer { signed := false, base := 16, alternatePrefix := [48, 88] }
  else if c == 111 then integer { signed := false, base := 8, alternatePrefix := [48] }
  else if c == 112 then integer { signed := false, base := 16, alternatePrefix := [48, 120] }
  else if c == 102 then real .fixed false
  else if c == 101 then real .exponent false
  else if c == 69 then real .exponent true
  else if c == 103 then real .general false
  else if c == 71 then real .general true
  else if c == 115 || c == 122 then
    let (t, args) := nextText args
    let t := t.getD []
    let piece := match s.precision with
      | some p => if s.alternate2 then Text.takeChars p t else t.take p
      | none => t
    some (pad (widthFor piece) piece, args)
  else if c == 113 || c == 81 || c == 119 then
    let q : UInt8 := if c == 119 then 34 else 39
    let (t, args) := nextText args
    let (text, quoted) := match t with
      | some b => (b, c == 81)
      | none => ((if c == 81 then "NULL" else "(NULL)").toUTF8.toList, false)
    let body := escapeText s q text.length s.precision text
    let piece := if quoted then q :: body ++ [q] else body
    some (pad (widthFor piece) piece, args)
  else if c == 99 then
    let (t, args) := nextText args
    let ch : List UInt8 := match t with
      | some (b :: rest) =>
        if b.toNat ≥ 0xC0 then b :: (rest.takeWhile Text.isContinuation).take 3 else [b]
      | _ => [0]
    let p := s.precision.getD 0
    if p ≥ maxLength || s.width ≥ maxLength then some (none, args)
    else
      let (lead, width) : List UInt8 × Int :=
        if p > 1 then
          let w : Int := Int.ofNat s.width - (p - 1)
          if w > 1 && !s.leftJustify then (List.replicate (w - 1).toNat 32, 0) else ([], w)
        else ([], s.width)
      let copies := (List.replicate (p - 1) ch).flatten
      let width := if width > 0 then width + continuationCount ch else width
      some ((pad width ch).map (lead ++ copies ++ ·), args)
  else if c == 37 then some (pad s.width [37], args)
  else if c == 110 then some (some [], args)
  else none

/-- Lays out the rest of a format: the output so far and whether anything
was written, even nothing, which makes the result a text rather than
null.  `none` when the output grows too long. -/
def run : Nat → List UInt8 → List Value → List UInt8 → Bool → Option (List UInt8 × Bool)
  | 0, _, _, out, touched => some (out, touched)
  | _, [], _, out, touched => some (out, touched)
  | fuel + 1, 37 :: rest, args, out, touched =>
    match rest with
    | [] => some (out ++ [37], true)
    | c :: more =>
      let (spec, conv, after, args) := readSpec (rest.length + 1) {} c more args
      match convert spec conv args with
      | none => some (out, touched)
      | some (none, _) => none
      | some (some piece, args) =>
        if out.length + piece.length ≥ maxLength then none
        else run fuel after args (out ++ piece) true
  | fuel + 1, b :: rest, args, out, _ =>
    let lit := b :: rest.takeWhile (· != 37)
    run fuel (rest.dropWhile (· != 37)) args (out ++ lit) true

/-- `format(f, args...)`, also called `printf`: null when the format is
null, when no conversion wrote anything, or when the text grows too
long. -/
def format (args : List Value) : Value :=
  match args with
  | f :: rest =>
    match f.render with
    | some fb =>
      let fmt := Text.untilNul fb.toList
      match run (fmt.length + 1) fmt rest [] false with
      | some (out, true) => .text (Bytes.ofList out) .utf8
      | _ => .null
    | none => .null
  | [] => .null

end Format
end Sql
end PowChain
