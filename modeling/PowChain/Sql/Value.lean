import PowChain.Sql.NumberText
import PowChain.Sql.Encoding

/-!
# Values

A value is of one of five storage classes: null, a 64-bit integer, a double,
a text or a blob.  A text is kept as its bytes in an encoding, which need
not be well formed; a blob carries the encoding its bytes read in as text.

Values are ordered by class first (null, then numbers, then texts, then
blobs).  Numbers of both kinds are compared by their exact values, so a
large integer and the nearest double are told apart.  Texts are compared by a
collation (`binary` bytewise, `nocase` with ASCII letters folded, `rtrim`
with trailing spaces ignored), blobs always bytewise.

Numbers and texts convert into each other as the engine converts them:

* A double is written with fifteen significant digits (`%!.15g`): `1.0`,
  `2.5e-05`, `1.0e+20`.
* Arithmetic reads a text or a blob as the integer or double at its start:
  an integer when the text is an integer that fits in 64 bits, or when it
  is no valid number at all but starts with digits (`'12abc'` is 12, `'abc'`
  is 0); otherwise the double read.
* A column of numeric affinity keeps a text that is wholly a number as a
  number: an integer when it is written as one that fits, or when its
  double is an integer strictly inside the 64-bit range; otherwise a
  double.  A double stored there that is such an integer becomes one.
* `CAST(... AS NUMERIC)` keeps integers and doubles as they are; a text
  becomes an integer when it is an integer or no number at all, or when its
  double is an integer of magnitude below `2^51`.
-/

namespace PowChain
namespace Sql

/-- A value as a column or an expression holds it. -/
inductive Value where
  | null
  | int (v : Int)
  /-- A double, by its bits. -/
  | real (bits : UInt64)
  /-- A text, by its bytes in an encoding. -/
  | text (bytes : ByteArray) (enc : Encoding)
  /-- A blob, with the encoding its bytes read in when it is taken as a text. -/
  | blob (bytes : ByteArray) (enc : Encoding)

instance : Inhabited Value := ⟨.null⟩

namespace Value

/-- The name of the value's storage class. -/
def kind : Value → String
  | .null => "Null"
  | .int _ => "Integer"
  | .real _ => "Real"
  | .text _ _ => "Text"
  | .blob _ _ => "Blob"

/-- The rank of the value's class in the order of values. -/
def classRank : Value → Nat
  | .null => 0
  | .int _ | .real _ => 1
  | .text _ _ => 2
  | .blob _ _ => 3

def isNull : Value → Bool
  | .null => true
  | _ => false

/-- Whether two values are the same value of the same class. -/
def same : Value → Value → Bool
  | .null, .null => true
  | .int a, .int b => a == b
  | .real a, .real b => a == b
  | .text a ea, .text b eb =>
    let m := ea.meet eb
    ea.translate m a == eb.translate m b
  | .blob a _, .blob b _ => a == b
  | _, _ => false

instance : BEq Value := ⟨same⟩

/-- A text value of a string. -/
def ofString (s : String) : Value := .text s.toUTF8 .utf8

end Value

/-! ## Exact numbers -/

/-- A finite double as its sign, mantissa `m` and exponent `e`, its value
being `±m·2^e`; `none` for an infinity or a NaN. -/
def realParts (bits : UInt64) : Option (Bool × Nat × Int) :=
  let n := bits.toNat
  let neg := n ≥ Nat.pow 2 63
  let e := n / Nat.pow 2 52 % 2048
  let f := n % Nat.pow 2 52
  if e == 2047 then none
  else if e == 0 then some (neg, f, -1074)
  else some (neg, f + Nat.pow 2 52, Int.ofNat e - 1075)

/-- Whether a double's bits are a NaN. -/
def isNaN (bits : UInt64) : Bool :=
  bits.toNat / Nat.pow 2 52 % 2048 == 2047 && bits.toNat % Nat.pow 2 52 != 0

/-- An exact rational `num / den`, `den` positive. -/
structure Exact where
  num : Int
  den : Nat

namespace Exact

def ofInt (i : Int) : Exact := ⟨i, 1⟩

/-- The exact value of a finite double. -/
def ofParts (neg : Bool) (m : Nat) (e : Int) : Exact :=
  let n : Int := if neg then -(Int.ofNat m) else Int.ofNat m
  if e ≥ 0 then ⟨n * Int.ofNat (Nat.pow 2 e.toNat), 1⟩ else ⟨n, Nat.pow 2 (-e).toNat⟩

def compare (x y : Exact) : Ordering :=
  Ord.compare (x.num * Int.ofNat y.den) (y.num * Int.ofNat x.den)

/-- The integer part, rounded toward zero. -/
def truncate (x : Exact) : Int :=
  if x.num ≥ 0 then x.num / Int.ofNat x.den else -((-x.num) / Int.ofNat x.den)

end Exact

/-- A number on the extended line: the infinities a double may be. -/
inductive Num where
  | negInf
  | finite (q : Exact)
  | posInf

/-- The number a double's bits stand for; a NaN counts as zero. -/
def Num.ofBits (bits : UInt64) : Num :=
  match realParts bits with
  | some (neg, m, e) => .finite (Exact.ofParts neg m e)
  | none =>
    if isNaN bits then .finite (Exact.ofInt 0)
    else if bits.toNat ≥ Nat.pow 2 63 then .negInf else .posInf

def Num.compare : Num → Num → Ordering
  | .negInf, .negInf => .eq
  | .negInf, _ => .lt
  | _, .negInf => .gt
  | .posInf, .posInf => .eq
  | .posInf, _ => .gt
  | _, .posInf => .lt
  | .finite x, .finite y => x.compare y

/-! ## Collations and the order of values -/

/-- How texts are compared. -/
inductive Collation where
  | binary
  | nocase
  | rtrim
  deriving DecidableEq, Repr

/-- The collation a name gives, without regard to case. -/
def Collation.ofName? (n : String) : Option Collation :=
  let u := n.toUpper
  if u == "BINARY" then some .binary
  else if u == "NOCASE" then some .nocase
  else if u == "RTRIM" then some .rtrim
  else none

/-- An ASCII capital letter's lower-case form; other bytes stay. -/
def foldByte (b : UInt8) : UInt8 := if 65 ≤ b && b ≤ 90 then b + 32 else b

/-- Bytes without their trailing spaces. -/
def trimSpaces (b : ByteArray) : ByteArray :=
  ⟨(b.toList.reverse.dropWhile (· == 32)).reverse.toArray⟩

def Collation.compare : Collation → ByteArray → ByteArray → Ordering
  | .binary, a, b => Bytes.compare a b
  | .nocase, a, b => Ord.compare (a.toList.map foldByte) (b.toList.map foldByte)
  | .rtrim, a, b => Bytes.compare (trimSpaces a) (trimSpaces b)

namespace Value

/-- The number a numeric value is. -/
def num : Value → Num
  | .int i => .finite (Exact.ofInt i)
  | .real bits => Num.ofBits bits
  | _ => .finite (Exact.ofInt 0)

/-- The order of values, texts compared by `c`. -/
def compareWith (c : Collation) (a b : Value) : Ordering :=
  match a, b with
  | .null, .null => .eq
  | .text x ex, .text y ey =>
    -- bytewise in the texts' own encoding; the other collations read UTF-8
    if c == .binary then
      let m := ex.meet ey
      c.compare (ex.translate m x) (ey.translate m y)
    else c.compare (ex.decode x) (ey.decode y)
  | .blob x _, .blob y _ => Bytes.compare x y
  | _, _ =>
    if a.classRank != b.classRank then Ord.compare a.classRank b.classRank
    else a.num.compare b.num

/-- The order of values with texts compared bytewise. -/
def compare (a b : Value) : Ordering := compareWith .binary a b

end Value

/-! ## Numbers and texts -/

/-- The text of a double as a value shows it. -/
def renderReal (bits : UInt64) : String := realText bits

/-- The double nearest to an integer, ties to even. -/
def realOfInt (i : Int) : UInt64 := (Extended.mk (i < 0) i.natAbs 0).toDouble

/-- Whether two doubles are equal as numbers: the two zeros are, a NaN is
not even equal to itself. -/
def realEq (a b : UInt64) : Bool :=
  if isNaN a || isNaN b then false
  else if a.toNat % twoPow 63 == 0 && b.toNat % twoPow 63 == 0 then true
  else a == b

/-- Whether a double is zero. -/
def realIsZero (bits : UInt64) : Bool := bits.toNat % twoPow 63 == 0

/-- The integer a double gives, truncated toward zero, at or past ±2^63
clamped to the range (the engine's conversion of a real to an integer). -/
def intOfReal (bits : UInt64) : Int :=
  match Num.ofBits bits with
  | .negInf => minInt
  | .posInf => maxInt
  | .finite q =>
    if isNaN bits then minInt
    else
      let t := q.truncate
      if t ≤ minInt then minInt else if t ≥ maxInt + 1 then maxInt else t

/-- The integer a double gives, clamped already past the largest doubles
below ±2^63. -/
def realToInt (bits : UInt64) : Int :=
  let bound : Int := Int.ofNat (twoPow 63) - 1024
  match Num.ofBits bits with
  | .negInf => minInt
  | .posInf => maxInt
  | .finite q =>
    if isNaN bits then minInt
    else if q.compare (Exact.ofInt (-bound)) == .lt then minInt
    else if q.compare (Exact.ofInt bound) == .gt then maxInt
    else q.truncate

/-- Whether a double stands for an integer small enough to be kept as one
without losing it: zero, or the very double of an integer of magnitude
below `2^51`. -/
def realSameAsInt (bits : UInt64) (i : Int) : Bool :=
  realIsZero bits ||
    (realOfInt i == bits && -(Int.ofNat (twoPow 51)) ≤ i && i < Int.ofNat (twoPow 51))

/-- A double as a column of numeric affinity keeps it: an integer when it
is one strictly inside the 64-bit range. -/
def integerAffinity (bits : UInt64) : Value :=
  let i := intOfReal bits
  if realEq bits (realOfInt i) && minInt < i && i < maxInt then .int i else .real bits

/-- A text that is wholly a number, as a number: an integer when it is
written as one, or when its double is one without loss (or `tryInt` and
its double is an integer inside the range); `none` for any other text. -/
def numericText (tryInt : Bool) (b : ByteArray) : Option Value :=
  let (rc, r) := readReal b
  if rc ≤ 0 then none
  else
    let alsoInt : Option Int :=
      if rc != 1 then none
      else
        let i := realToInt r
        if realSameAsInt r i then some i
        else
          let (rci, v) := readInteger b
          if rci == 0 then some v else none
    match alsoInt with
    | some i => some (.int i)
    | none => some (if tryInt then integerAffinity r else .real r)

/-- The digits of a hexadecimal literal after `0x` and its leading zeros,
as the 64-bit word they spell and their count. -/
def hexWord (ds : List Char) : Nat × Nat :=
  let ds := ds.dropWhile (· == '0')
  let ds := ds.takeWhile Char.isHexDigit
  (ds.foldl (fun acc c => (acc * 16 + (if c.isDigit then c.toNat - 48
    else (c.toLower.toNat - 87))) % twoPow 64) 0, ds.length)

/-- The value of a number literal, negated when a minus sign stands right
before it: a literal with a point or an exponent is the double it reads;
an integer literal is an integer when it fits, the negated `2^63`
included, and the double its digits read otherwise.  A hexadecimal literal is
a 64-bit word taken as a signed integer; one of more than sixteen digits,
or the negation of `-2^63`, is refused. -/
def literalValue (text : String) (negated : Bool) : Except String Value :=
  let sign := if negated then "-" else ""
  match text.toList with
  | '0' :: x :: ds =>
    if x == 'x' || x == 'X' then
      let (w, count) := hexWord ds
      let v : Int := if w ≥ twoPow 63 then Int.ofNat w - Int.ofNat (twoPow 64) else Int.ofNat w
      if count > 16 || (negated && v == minInt) then
        .error s!"hex literal too big: {sign}{text}"
      else .ok (.int (if negated then -v else v))
    else decimal
  | _ => decimal
where
  /-- A decimal literal. -/
  decimal : Except String Value :=
    let (rc, v) := readInteger text.toUTF8
    let isFloat := text.any fun c => c == '.' || c == 'e' || c == 'E'
    if isFloat || (rc == 3 && !negated) || rc == 2 || (negated && v == minInt) then
      let r := (readReal text.toUTF8).2
      .ok (.real (if negated then r ^^^ UInt64.ofNat (twoPow 63) else r))
    else .ok (.int (if negated then (if rc == 3 then minInt else -v) else v))

namespace Value

/-- The UTF-8 text of a value, as the text functions read it. -/
def render : Value → Option ByteArray
  | .null => none
  | .int i => some (toString i).toUTF8
  | .real bits => some (renderReal bits).toUTF8
  | .text b e => some (e.decode b)
  | .blob b e => some (e.decode b)

/-- The bytes of a value taken as a text in encoding `enc`: a blob's as
they are. -/
def encoded (enc : Encoding) : Value → Option ByteArray
  | .null => none
  | .text b e => some (e.translate enc b)
  | .blob b _ => some b
  | v => v.render.map enc.encode

/-- The value with its bytes in encoding `enc`: a text translated, a blob
only marked. -/
def inEncoding (enc : Encoding) : Value → Value
  | .text b e => .text (e.translate enc b) enc
  | .blob b _ => .blob b enc
  | v => v

/-- The integer a value gives: a double truncated and clamped, a text or a
blob read as the integer at its start, null zero. -/
def intValue : Value → Int
  | .null => 0
  | .int i => i
  | .real b => intOfReal b
  | .text b e | .blob b e => (readInteger (e.decode b)).2

/-- The double a value gives: a text or a blob read as the double at its
start, null zero. -/
def realValue : Value → UInt64
  | .null => 0
  | .int i => realOfInt i
  | .real b => b
  | .text b e | .blob b e => (readReal (e.decode b)).2

/-- The number a value is in arithmetic: an integer or a double; null stays
null. -/
def numeric : Value → Value
  | .text b e | .blob b e =>
    let b := e.decode b
    let (rc, r) := readReal b
    let (rci, ix) := readInteger b
    if rc ≤ 0 then (if rc == 0 && rci ≤ 1 then .int ix else .real r)
    else if rc == 1 && rci == 0 then .int ix
    else .real r
  | v => v

/-- The value `CAST(... AS NUMERIC)` gives. -/
def numerify : Value → Value
  | .text b e | .blob b e =>
    let b := e.decode b
    let (rc, r) := readReal b
    let (rci, ix) := readInteger b
    if (rc == 0 || rc == 1) && rci ≤ 1 then .int ix
    else
      let i := realToInt r
      if realSameAsInt r i then .int i else .real r
  | v => v

/-- The integer a value is when cast to an integer. -/
def toInteger : Value → Value
  | .null => .null
  | v => .int v.intValue

/-- The double a value is when cast to a real. -/
def toReal : Value → Value
  | .null => .null
  | v => .real v.realValue

/-- Whether a value counts as true; `none` for null.  A text or a blob
counts by the double at its start. -/
def truth : Value → Option Bool
  | .null => none
  | .int i => some (i != 0)
  | v => some (!realIsZero v.realValue)

end Value

/-! ## Affinity -/

/-- The kind of value a column prefers. -/
inductive Affinity where
  | blob
  | text
  | numeric
  | integer
  | real
  deriving DecidableEq, Repr

/-- The affinity a declared type gives: `INT` anywhere makes an integer
column; then `CHAR`, `CLOB` or `TEXT` a text column; `BLOB` or no type a
column without preference; `REAL`, `FLOA` or `DOUB` a real column; anything
else a numeric one. -/
def Affinity.ofType (t : String) : Affinity :=
  let u := t.toUpper
  let has (s : String) : Bool := (u.splitOn s).length > 1
  if has "INT" then .integer
  else if has "CHAR" || has "CLOB" || has "TEXT" then .text
  else if has "BLOB" || u.trimAscii.isEmpty then .blob
  else if has "REAL" || has "FLOA" || has "DOUB" then .real
  else .numeric

/-- A value as a column of affinity `a` keeps it. -/
def Value.withAffinity (a : Affinity) (v : Value) : Value :=
  match a, v with
  | .text, .int _ | .text, .real _ =>
    match v.render with
    | some b => .text b .utf8
    | none => v
  | .real, .text b e =>
    match numericText false (e.decode b) with
    | some (.int i) => .real (realOfInt i)
    | some r => r
    | none => v
  | .numeric, .text b e | .integer, .text b e => (numericText true (e.decode b)).getD v
  | .numeric, .real bits | .integer, .real bits => integerAffinity bits
  | .real, .int i => .real (realOfInt i)
  | _, _ => v

end Sql
end PowChain
