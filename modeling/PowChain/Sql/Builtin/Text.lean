import PowChain.Sql.Value

/-!
# Texts as bytes

The text functions work on the bytes of a text, not on well-formed
characters, and they read those bytes the way the engine reads UTF-8:

* A character starts at any byte that is not a continuation byte
  (`0x80`–`0xBF`) or at the first byte.  A lead byte of `0xC0` or more
  swallows all the continuation bytes after it; a byte below `0xC0` is a
  character on its own, a stray continuation byte included.
* Read as a code point (`readChar`), a lead byte and its continuations
  give the value they spell; an overlong form, a surrogate or
  `0xFFFE`/`0xFFFF` reads as `0xFFFD`.  A stray continuation byte reads as
  its own value.
* Most functions stop at the first NUL byte, as the engine's C strings do:
  `length`, `substr`, the patterns, `quote`, `unicode`.  `instr`, `trim`,
  `replace`, `upper`, `lower`, `hex` see every byte.

The main entries are `Text.substr`, `Text.instr`, `Text.trim`,
`Text.replace`, `Text.quoteText`, `Text.ofCodes`, `Text.unhex` and
`Text.soundex`.
-/

namespace PowChain
namespace Sql
namespace Text

/-- The bytes before the first NUL. -/
def untilNul (l : List UInt8) : List UInt8 := l.takeWhile (· != 0)

/-- The bytes after the character that starts a byte list. -/
def skipChar : List UInt8 → List UInt8
  | [] => []
  | b :: rest => if b.toNat ≥ 0xC0 then rest.dropWhile isContinuation else rest

/-- The characters of bytes, one list of bytes each. -/
def splitChars : List UInt8 → List (List UInt8)
  | [] => []
  | b :: rest =>
    let tail := if b.toNat ≥ 0xC0 then rest.takeWhile isContinuation else []
    (b :: tail) :: splitChars (rest.drop tail.length)
termination_by l => l.length
decreasing_by all_goals (simp only [List.length_drop, List.length_cons]; omega)

/-- How many characters a text has before its first NUL. -/
def charCount (l : List UInt8) : Nat := (splitChars (untilNul l)).length

/-- Drops up to `n` characters. -/
def dropChars (n : Nat) (l : List UInt8) : List UInt8 := ((splitChars l).drop n).flatten

/-- Keeps up to `n` characters. -/
def takeChars (n : Nat) (l : List UInt8) : List UInt8 := ((splitChars l).take n).flatten

/-- An integer as a 32-bit signed integer, its low bits kept. -/
def toInt32 (i : Int) : Int :=
  let w := (i % Int.ofNat (twoPow 32)).toNat
  if w ≥ twoPow 31 then Int.ofNat w - Int.ofNat (twoPow 32) else Int.ofNat w

/-- Where `substr` starts and how much it takes, from the start `p1` and
the length `p2` after their own rules: a start counted from 1, from the end
when negative, and a negative length taking that much before the start.
`len` is the length of the whole, needed only for a negative start. -/
def substrBounds (len p1 : Int) (p2 : Int) (negP2 : Bool) : Int × Int :=
  let (p1, p2) :=
    if p1 < 0 then
      let p1 := p1 + len
      if p1 < 0 then (0, max 0 (p2 + p1)) else (p1, p2)
    else if p1 > 0 then (p1 - 1, p2)
    else if p2 > 0 then (p1, p2 - 1)
    else (p1, p2)
  if negP2 then
    let p1 := p1 - p2
    if p1 < 0 then (0, p2 + p1) else (p1, p2)
  else (p1, p2)

/-- `substr(x, start[, length])`: characters of a text, bytes of a blob.
The start and the length are taken as 32-bit integers; a length left out
is a billion.  Null when an argument is null, or for a blob of no bytes. -/
def substr (x start : Value) (length : Option Value) : Value :=
  if start.isNull || (length.map Value.isNull).getD false || x.isNull then .null
  else
    let p1 := toInt32 start.intValue
    let (p2, negP2) : Int × Bool := match length with
      | some l =>
        let p2 := toInt32 l.intValue
        if p2 < 0 then (-p2, true) else (p2, false)
      | none => (1000000000, false)
    match x with
    | .blob b e =>
      if b.size == 0 then .null
      else
        let len : Int := b.size
        let (p1, p2) := substrBounds len p1 p2 negP2
        let p2 := if p1 + p2 > len then max 0 (len - p1) else p2
        .blob (Bytes.ofList ((b.toList.drop p1.toNat).take p2.toNat)) e
    | _ =>
      let bytes := untilNul (x.render.getD ByteArray.empty).toList
      let len : Int := if p1 < 0 then (splitChars bytes).length else 0
      let (p1, p2) := substrBounds len p1 p2 negP2
      .text (Bytes.ofList (takeChars p2.toNat (dropChars p1.toNat bytes))) .utf8

/-- The 1-based place where `needle` first stands in `hay`, counting the
places a search visits: every byte of a blob, the first byte and every
byte that is no continuation byte of a text.  Zero when it is absent. -/
def findPlace (isText : Bool) (needle : List UInt8) : Nat → Nat → List UInt8 → Nat
  | _, _, [] => if needle.isEmpty then 1 else 0
  | 0, _, _ => 0
  | fuel + 1, n, b :: rest =>
    if needle.length > rest.length + 1 then 0
    else if (b :: rest).take needle.length == needle then n
    else
      let rest' := if isText then rest.dropWhile isContinuation else rest
      findPlace isText needle fuel (n + 1) rest'

/-- `instr(hay, needle)`: bytes of two blobs, bytes of texts otherwise
(a blob beside a text read as a text).  An empty needle stands at 1. -/
def instr (hay needle : Value) : Value :=
  if hay.isNull || needle.isNull then .null
  else
    let (isText, h, nd) := match hay, needle with
      | .blob h _, .blob nd _ => (false, h.toList, nd.toList)
      | _, _ => (true, (hay.render.getD ByteArray.empty).toList, (needle.render.getD ByteArray.empty).toList)
    if nd.isEmpty then .int 1
    else .int (findPlace isText nd h.length 1 h)

/-- Takes the characters of `set` off the front of bytes, as long as one
of them starts them. -/
def trimFront (set : List (List UInt8)) : Nat → List UInt8 → List UInt8
  | 0, l => l
  | fuel + 1, l =>
    match set.find? fun c => !c.isEmpty && l.take c.length == c with
    | some c => trimFront set fuel (l.drop c.length)
    | none => l

/-- `trim`, `ltrim`, `rtrim`: takes off the characters of a set (a space
when none is given) from the front, the back or both.  The set is read
up to its first NUL; the text keeps all its bytes. -/
def trim (front back : Bool) (x : Value) (set : Option Value) : Value :=
  if x.isNull || (set.map Value.isNull).getD false then .null
  else
    let bytes := (x.render.getD ByteArray.empty).toList
    let chars : List (List UInt8) := match set with
      | some s => splitChars (untilNul (s.render.getD ByteArray.empty).toList)
      | none => [[32]]
    if chars.isEmpty then .text (Bytes.ofList bytes) .utf8
    else
      let bytes := if front then trimFront chars bytes.length bytes else bytes
      let bytes :=
        if back then (trimFront (chars.map List.reverse) bytes.length bytes.reverse).reverse
        else bytes
      .text (Bytes.ofList bytes) .utf8

/-- Replaces each occurrence of `pat`, from the left, without overlaps. -/
def replaceAll (pat rep : List UInt8) : List UInt8 → List UInt8
  | [] => []
  | b :: rest =>
    if !pat.isEmpty && (b :: rest).take pat.length == pat && pat.length ≤ rest.length + 1 then
      rep ++ replaceAll pat rep (rest.drop (pat.length - 1))
    else b :: replaceAll pat rep rest
termination_by l => l.length
decreasing_by all_goals (simp only [List.length_drop, List.length_cons]; omega)

/-- `replace(x, pattern, replacement)` on all the bytes of its texts.  A
pattern that is empty or starts with a NUL leaves the text as it is, even
when the replacement is null. -/
def replace (x pat rep : Value) : Value :=
  match x.render, pat.render with
  | some xs, some ps =>
    match ps.toList with
    | [] | 0 :: _ => .text xs .utf8
    | p =>
      match rep.render with
      | some r => .text (Bytes.ofList (replaceAll p r.toList xs.toList)) .utf8
      | none => .null
  | _, _ => .null

/-- An ASCII letter in upper case. -/
def upperByte (b : UInt8) : UInt8 := if 97 ≤ b && b ≤ 122 then b - 32 else b

/-- An ASCII letter in lower case. -/
def lowerByte (b : UInt8) : UInt8 := if 65 ≤ b && b ≤ 90 then b + 32 else b

/-- `upper` or `lower`: ASCII letters changed, every other byte kept. -/
def changeCase (upper : Bool) (x : Value) : Value :=
  match x.render with
  | some b => .text (Bytes.ofList (b.toList.map (if upper then upperByte else lowerByte))) .utf8
  | none => .null

/-- The upper-case hexadecimal digits of bytes. -/
def hexDigits (b : List UInt8) : List UInt8 :=
  let digit (n : Nat) : UInt8 := (if n < 10 then 48 + n else 55 + n).toUInt8
  b.flatMap fun x => [digit (x.toNat / 16), digit (x.toNat % 16)]

/-- `hex(x)`: the digits of the bytes of a blob or of the text of a value;
an empty text for null. -/
def hex (x : Value) : Value :=
  let bytes := match x with
    | .blob b _ => b
    | v => v.render.getD ByteArray.empty
  .text (Bytes.ofList (hexDigits bytes.toList)) .utf8

/-- A text in single quotes with its quotes doubled, read up to its first
NUL. -/
def quoteText (b : List UInt8) : List UInt8 :=
  39 :: (untilNul b).flatMap (fun x => if x == 39 then [39, 39] else [x]) ++ [39]

/-- `char(...)`: the characters of the integers given; one out of range is
`U+FFFD`. -/
def ofCodes (args : List Value) : Value :=
  .text (Bytes.ofList (args.flatMap fun v =>
    let x := v.intValue
    encodeCode (if x < 0 || x > 0x10FFFF then 0xFFFD else x.toNat))) .utf8

/-- `unicode(x)`: the code of the first character, null for an empty
text. -/
def unicode (x : Value) : Value :=
  match x.render with
  | some b =>
    match readChar (untilNul b.toList) with
    | some (c, _) => .int c
    | none => .null
  | none => .null

/-- The value of a hexadecimal digit, if the byte is one. -/
def hexDigitValue (b : UInt8) : Option Nat :=
  let v := b.toNat
  if 48 ≤ v && v ≤ 57 then some (v - 48)
  else if 65 ≤ v && v ≤ 70 then some (v - 55)
  else if 97 ≤ v && v ≤ 102 then some (v - 87)
  else none

/-- Reads pairs of hexadecimal digits, passing over characters of `pass`
between pairs; `none` at any other character. -/
def unhexBytes (pass : List Nat) : Nat → List UInt8 → Option (List UInt8)
  | 0, _ => some []
  | _, [] => some []
  | fuel + 1, b :: rest =>
    match hexDigitValue b with
    | some hi =>
      match rest with
      | d :: more =>
        match hexDigitValue d with
        | some lo => (unhexBytes pass fuel more).map ((hi * 16 + lo).toUInt8 :: ·)
        | none => none
      | [] => none
    | none =>
      match readChar (b :: rest) with
      | some (c, more) => if pass.contains c then unhexBytes pass fuel more else none
      | none => some []

/-- `unhex(x[, pass])`: the blob a text of hexadecimal digit pairs spells,
with the characters of `pass` allowed between pairs; null for anything
else. -/
def unhex (x : Value) (pass : Option Value) : Value :=
  match x.render, pass.map Value.render with
  | some h, none | some h, some (some _) =>
    let passBytes := match pass.bind Value.render with
      | some p => p.toList
      | none => []
    let h := untilNul h.toList
    match unhexBytes (codes passBytes.length passBytes) h.length h with
    | some bytes => .blob (Bytes.ofList bytes) .utf8
    | none => .null
  | _, _ => .null

/-- The soundex digit of a byte, by its low seven bits. -/
def soundexCode (b : UInt8) : Nat :=
  let c := lowerByte (b % 128)
  if [98, 102, 112, 118].contains c.toNat then 1
  else if [99, 103, 106, 107, 113, 115, 120, 122].contains c.toNat then 2
  else if [100, 116].contains c.toNat then 3
  else if c.toNat == 108 then 4
  else if [109, 110].contains c.toNat then 5
  else if c.toNat == 114 then 6
  else 0

/-- Whether a byte is an ASCII letter. -/
def isAsciiLetter (b : UInt8) : Bool := (65 ≤ b && b ≤ 90) || (97 ≤ b && b ≤ 122)

/-- The digits soundex gives the bytes from its first letter on: a digit
for each run of one code, none for a byte without one, at most three. -/
def soundexDigits (prev : Nat) : Nat → List UInt8 → List UInt8
  | 0, _ => []
  | _, [] => []
  | k + 1, b :: rest =>
    let code := soundexCode b
    if code > 0 then
      if code != prev then (48 + code).toUInt8 :: soundexDigits code k rest
      else soundexDigits prev (k + 1) rest
    else soundexDigits 0 (k + 1) rest
termination_by k l => (l.length, k)

/-- `soundex(x)`: the first ASCII letter in upper case and three digits;
`?000` when there is no letter. -/
def soundex (x : Value) : Value :=
  let b := untilNul (x.render.getD ByteArray.empty).toList
  match b.dropWhile (!isAsciiLetter ·) with
  | [] => .ofString "?000"
  | first :: rest =>
    let ds := soundexDigits (soundexCode first) 3 rest
    .text (Bytes.ofList (upperByte first :: ds ++ List.replicate (3 - ds.length) 48)) .utf8

/-- `length(x)`: the characters of a text before its first NUL, the bytes
of a blob or of a number's text. -/
def length (x : Value) : Value :=
  match x with
  | .null => .null
  | .text b e => .int (charCount (e.decode b).toList)
  | .blob b _ => .int b.size
  | v => .int (v.render.getD ByteArray.empty).size

/-- `octet_length(x)`: the bytes of the value's text or blob. -/
def octetLength (x : Value) : Value :=
  match x with
  | .null => .null
  | .blob b _ => .int b.size
  | v => .int (v.render.getD ByteArray.empty).size

end Text
end Sql
end PowChain
