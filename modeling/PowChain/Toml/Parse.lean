import PowChain.Toml.Basic

/-!
# Reading TOML

The reader works on the bytes of the text and keeps the offset it has reached.
A failure is either soft, when another reading may still be tried from the
same place (an array then ends, a key path stops before its dot), or hard,
when the text is certainly wrong there.  The messages name what was being
read (`invalid table header`, `invalid basic string`, …) and what was expected
instead (`expected newline, `#``).

Lines are handled in order: comments, blank lines, table headers and
`key = value` lines.  Each header or key-value line is entered into the tree
at once, so that a redefinition is reported where it occurs, at the start of
its line:

* a header may name a table that only exists implicitly (created on the way
  to a deeper header), but not one that was defined or holds a value;
* a dotted key may extend tables made by dotted keys, but not tables defined
  by a header;
* a key may be set once in its table.
-/

namespace PowChain
namespace Toml

/-- A failure, whether it rules out other readings, and whether its message
already names what was being read (`invalid …`). -/
structure PFault where
  fault : Fault
  hard : Bool
  named : Bool := false

/-- A reader over the bytes of a text, holding the offset reached. -/
abbrev P (α : Type) := ReaderT ByteArray (ExceptT PFault (StateM Nat)) α

namespace Reader

def peekAt (k : Nat) : P (Option UInt8) := do
  let b ← read
  let i := (← get) + k
  pure (if h : i < b.size then some b[i] else none)

def peek : P (Option UInt8) := peekAt 0

def advance (n : Nat) : P Unit := modify (· + n)

/-- The number of bytes of the character a byte leads: a lone or trailing
byte counts as one. -/
def charWidth (lead : UInt8) : Nat :=
  if lead < 0xc0 then 1 else if lead < 0xe0 then 2 else if lead < 0xf0 then 3 else 4

/-- The span a failure at `pos` points at: the character there, or nothing
at the end. -/
def spanAt (text : ByteArray) (pos : Nat) : Span :=
  if h : pos < text.size then
    ⟨pos, min text.size (pos + charWidth (text.get pos h))⟩
  else ⟨pos, pos⟩

def failAt {α : Type} (hard : Bool) (pos : Nat) (msg : String) : P α := do
  throw { fault := { message := msg, span := some (spanAt (← read) pos) }, hard,
          named := msg.startsWith "invalid " }

/-- A soft failure where the reader stands. -/
def soft {α : Type} (msg : String) : P α := do failAt false (← get) msg

/-- A hard failure where the reader stands. -/
def hard {α : Type} (msg : String) : P α := do failAt true (← get) msg

/-- Runs `x`; a soft failure gives none and puts the reader back. -/
def attempt {α : Type} (x : P α) : P (Option α) := do
  let start ← get
  tryCatch (some <$> x) fun e =>
    if e.hard then throw e else do set start; pure none

/-- Runs `x`; a soft failure becomes hard. -/
def cut {α : Type} (x : P α) : P α :=
  tryCatch x fun e => throw { e with hard := true }

/-- Runs `x`; a failure that names nothing yet is named as one of reading
`what`, before what was expected and why it failed. -/
def within {α : Type} (what : String) (x : P α) : P α :=
  tryCatch x fun e =>
    if e.named then throw e
    else
      let m := e.fault.message
      let message := if m.isEmpty then "invalid " ++ what else "invalid " ++ what ++ "\n" ++ m
      throw { e with fault := { e.fault with message }, named := true }

/-- Replaces the message of a failure of `x`. -/
def relabel {α : Type} (msg : String) (x : P α) : P α :=
  tryCatch x fun e => throw { e with fault := { e.fault with message := msg } }

/-- The first offset from `i` on whose byte fails `pred`. -/
def scanWhile (b : ByteArray) (pred : UInt8 → Bool) (i : Nat) : Nat :=
  if h : i < b.size then (if pred b[i] then scanWhile b pred (i + 1) else i) else i
termination_by b.size - i

def skipWhile (pred : UInt8 → Bool) : P Unit := do
  set (scanWhile (← read) pred (← get))

def isWs (c : UInt8) : Bool := c == 32 || c == 9

def isDigit (c : UInt8) : Bool := 48 ≤ c && c ≤ 57

def isHex (c : UInt8) : Bool := isDigit c || (65 ≤ c && c ≤ 70) || (97 ≤ c && c ≤ 102)

def isUnquoted (c : UInt8) : Bool :=
  isDigit c || (65 ≤ c && c ≤ 90) || (97 ≤ c && c ≤ 122) || c == 45 || c == 95

def isBasicUnescaped (c : UInt8) : Bool :=
  isWs c || c == 0x21 || (0x23 ≤ c && c ≤ 0x5b) || (0x5d ≤ c && c ≤ 0x7e) || c ≥ 0x80

def isLiteralChar (c : UInt8) : Bool :=
  c == 9 || (0x20 ≤ c && c ≤ 0x26) || (0x28 ≤ c && c ≤ 0x7e) || c ≥ 0x80

def isNonEol (c : UInt8) : Bool := c == 9 || (0x20 ≤ c && c ≤ 0x7e) || c ≥ 0x80

def ws : P Unit := skipWhile isWs

/-- A comment, from its `#`. -/
def comment : P Unit := do advance 1; skipWhile isNonEol

/-- A line break, if one is here. -/
def newline? : P Bool := do
  match ← peek with
  | some 10 => advance 1; pure true
  | some 13 => if (← peekAt 1) == some 10 then do advance 2; pure true else pure false
  | _ => pure false

/-- The rest of a line after an item: blanks, perhaps a comment, and a line
break or the end. -/
def lineTrailing (msg : String) : P Unit := do
  ws
  if (← peek) == some 35 then comment
  if ← newline? then pure ()
  else if (← peek).isNone then pure ()
  else hard msg

/-- Blanks, comments and line breaks inside arrays. -/
def wsCommentNewline : Nat → P Unit
  | 0 => pure ()
  | fuel + 1 => do
    ws
    match ← peek with
    | some 35 =>
      comment
      if !(← newline?) then soft ""
      wsCommentNewline fuel
    | some 10 | some 13 =>
      if ← newline? then wsCommentNewline fuel else soft ""
    | _ => pure ()

def budget : P Nat := do pure ((← read).size + 1)

def textOf (b : ByteArray) : String := (String.fromUTF8? b).getD ""

/-! ## Strings -/

def hexValue (c : UInt8) : Nat :=
  if isDigit c then c.toNat - 48 else if c ≤ 70 then c.toNat - 55 else c.toNat - 87

def utf8Of (c : Char) : ByteArray := c.toString.toUTF8

/-- The `n` hex digits of a unicode escape. -/
def hexEscape (n : Nat) : P ByteArray := do
  let b ← read
  let start ← get
  let stop := scanWhile b isHex start
  let label := s!"invalid unicode {n}-digit hex code"
  if stop - start < n then hard label
  let v := (b.extract start (start + n)).foldl (fun acc c => acc * 16 + hexValue c) 0
  if v < 0xd800 || (0xdfff < v && v < 0x110000) then
    advance n
    pure (utf8Of (Char.ofNat v))
  else hard (label ++ "\nvalue is out of range")

/-- An escape sequence, from its backslash. -/
def escape : P ByteArray := do
  advance 1
  match ← peek with
  | none => soft ""
  | some c =>
    advance 1
    if c == 98 then pure (ByteArray.mk #[8])
    else if c == 102 then pure (ByteArray.mk #[12])
    else if c == 110 then pure (ByteArray.mk #[10])
    else if c == 114 then pure (ByteArray.mk #[13])
    else if c == 116 then pure (ByteArray.mk #[9])
    else if c == 92 then pure (ByteArray.mk #[92])
    else if c == 34 then pure (ByteArray.mk #[34])
    else if c == 117 then hexEscape 4
    else if c == 85 then hexEscape 8
    else hard "invalid escape sequence\nexpected `b`, `f`, `n`, `r`, `t`, `u`, `U`, `\\`, `\"`"

/-- The characters of a basic string after its opening quote. -/
def basicBody : Nat → ByteArray → P ByteArray
  | 0, acc => pure acc
  | fuel + 1, acc => do
    match ← peek with
    | some 34 => advance 1; pure acc
    | some 92 =>
      let start ← get
      match ← attempt escape with
      | some e => basicBody fuel (acc ++ e)
      | none => failAt true start "invalid basic string"
    | some c =>
      if isBasicUnescaped c then do
        let b ← read
        let start ← get
        let stop := scanWhile b isBasicUnescaped start
        set stop
        basicBody fuel (acc ++ b.extract start stop)
      else hard "invalid basic string"
    | none => hard "invalid basic string"

def basicString : P String := do
  advance 1
  pure (textOf (← basicBody (← budget) ByteArray.empty))

def literalString : P String := do
  advance 1
  let b ← read
  let start ← get
  let stop := scanWhile b isLiteralChar start
  set stop
  if (← peek) == some 39 then do advance 1; pure (textOf (b.extract start stop))
  else hard "invalid literal string"

/-- How many bytes `c` repeat from the reader on. -/
def countRun (c : UInt8) : P Nat := do
  let b ← read
  pure (scanWhile b (· == c) (← get) - (← get))

/-- An escaped line break in a multi-line string: a backslash, blanks, a line
break and any blanks and line breaks after it. -/
def escapedNewline : P Unit := do
  advance 1
  ws
  if !(← newline?) then soft ""
  let rec more : Nat → P Unit
    | 0 => pure ()
    | fuel + 1 => do
      ws
      if ← newline? then more fuel else pure ()
  more (← budget)

/-- Whether a multi-line string may go on with the byte at `k` ahead: a
character of the string or a line break. -/
def continuesAt (isChar : UInt8 → Bool) (k : Nat) : P Bool := do
  match ← peekAt k with
  | some 10 => pure true
  | some 13 => pure ((← peekAt (k + 1)) == some 10)
  | some c => pure (isChar c)
  | none => pure false

/-- The body of a multi-line string with quote byte `q`, up to and including
its closing delimiter.  Up to two quotes may stand right before the delimiter.
With `escapes` (basic strings), backslash escapes are read, and quotes that
cannot be followed by content leave the reader after them; without (literal
strings), such quotes leave it before them. -/
def multiBody (q : UInt8) (escapes : Bool) (isChar : UInt8 → Bool) (label : String) :
    Nat → ByteArray → P ByteArray
  | 0, acc => pure acc
  | fuel + 1, acc => do
    match ← peek with
    | some c =>
      if c == q then do
        let n ← countRun q
        if n ≥ 3 then
          let extra := min (n - 3) 2
          advance (3 + extra)
          pure (acc ++ ByteArray.mk (Array.replicate extra q))
        else if (← peekAt n).isNone then hard label
        else if !escapes && !(← continuesAt isChar n) then hard label
        else
          advance n
          multiBody q escapes isChar label fuel (acc ++ ByteArray.mk (Array.replicate n q))
      else if escapes && c == 92 then do
        match ← attempt escapedNewline with
        | some () => multiBody q escapes isChar label fuel acc
        | none =>
          match ← attempt escape with
          | some e => multiBody q escapes isChar label fuel (acc ++ e)
          | none => hard label
      else if c == 10 || c == 13 then do
        if ← newline? then multiBody q escapes isChar label fuel (acc.push 10)
        else hard label
      else if isChar c then do
        let b ← read
        let start ← get
        let stop := scanWhile b isChar start
        set stop
        multiBody q escapes isChar label fuel (acc ++ b.extract start stop)
      else hard label
    | none => hard label

def multiString (q : UInt8) (escapes : Bool) (isChar : UInt8 → Bool) (label : String) : P String := do
  advance 3
  let _ ← newline?
  pure (textOf (← multiBody q escapes isChar label (← budget) ByteArray.empty))

/-! ## Keys -/

/-- A key segment; none when no segment starts here. -/
def simpleKey : P (Option (String × Span)) := do
  let start ← get
  let name ← match ← peek with
    | some 34 => some <$> basicString
    | some 39 => some <$> literalString
    | some c =>
      if isUnquoted c then do
        let b ← read
        let stop := scanWhile b isUnquoted start
        set stop
        pure (some (textOf (b.extract start stop)))
      else pure none
    | none => pure none
  let stop ← get
  pure (name.map fun k => (k, (⟨start, stop⟩ : Span)))

/-- The segments of a key after its first, each behind a dot. -/
def moreKeys : Nat → List (String × Span) → P (List (String × Span))
  | 0, acc => pure acc.reverse
  | fuel + 1, acc => do
    if (← peek) != some 46 then return acc.reverse
    let back ← get
    advance 1
    ws
    match ← simpleKey with
    | none => set back; pure acc.reverse
    | some k => ws; moreKeys fuel (k :: acc)

/-- How deep arrays and tables may nest, and how many parts a key may have. -/
def depthLimit : Nat := 80

/-- A dotted key: its segments, each with its range. -/
def key : P (List (String × Span)) := do
  let start ← get
  ws
  match ← simpleKey with
  | none => soft "invalid key"
  | some k =>
    ws
    let path ← moreKeys (← budget) [k]
    if path.length ≥ depthLimit then failAt false start "recursion limit exceeded"
    pure path

/-! ## Numbers and dates -/

/-- Digits with single underscores between them, from a first digit. -/
def digitRun (isD : UInt8 → Bool) (label : String) : Nat → P Unit
  | 0 => pure ()
  | fuel + 1 => do
    match ← peek with
    | some c =>
      if isD c then do advance 1; digitRun isD label fuel
      else if c == 95 then do
        advance 1
        match ← peek with
        | some d => if isD d then digitRun isD label fuel else hard label
        | none => hard label
      else pure ()
    | none => pure ()

/-- A decimal integer: a sign, then a single zero or digits without a
leading zero. -/
def decInt : P Unit := do
  match ← peek with
  | some 43 | some 45 => advance 1
  | _ => pure ()
  match ← peek with
  | some c =>
    if 49 ≤ c && c ≤ 57 then do advance 1; digitRun isDigit "invalid integer\nexpected digit" (← budget)
    else if c == 48 then advance 1
    else soft "invalid integer"
  | none => soft "invalid integer"

/-- Digits that may start with zero: `missing` when there is none, `after`
when an underscore is not followed by one. -/
def zeroPrefixable (missing after : String) : P Unit := do
  match ← peek with
  | some c => if isDigit c then do advance 1; digitRun isDigit after (← budget) else soft missing
  | none => soft missing

def stripUnderscores (b : ByteArray) : String := textOf (ByteArray.mk (b.data.filter (· != 95)))

/-- The double nearest to a decimal text `[sign] digits [. digits] [e [sign] digits]`. -/
def decimalValue (t : String) : Float :=
  let (neg, rest) := match t.toList with
    | '-' :: r => (true, r)
    | '+' :: r => (false, r)
    | r => (false, r)
  let mant := rest.takeWhile fun c => c != 'e' && c != 'E'
  let expPart := (rest.dropWhile fun c => c != 'e' && c != 'E').drop 1
  let intDigits := mant.takeWhile (· != '.')
  let fracDigits := (mant.dropWhile (· != '.')).drop 1
  let m := (intDigits ++ fracDigits).foldl (fun acc c => acc * 10 + (c.toNat - 48)) 0
  let e : Int := match expPart with
    | '-' :: ds => -((ds.foldl (fun acc c => acc * 10 + (c.toNat - 48)) 0 : Nat) : Int)
    | '+' :: ds => (ds.foldl (fun acc c => acc * 10 + (c.toNat - 48)) 0 : Nat)
    | ds => (ds.foldl (fun acc c => acc * 10 + (c.toNat - 48)) 0 : Nat)
  let e := e - fracDigits.length
  let width : Int := (toString m).length
  let v :=
    if m == 0 then 0
    else if width - 1 + e ≥ 309 then Float.ofScientific 1 false 400
    else if width + e < -330 then 0
    else if e ≥ 0 then Float.ofScientific m false e.toNat else Float.ofScientific m true (-e).toNat
  if neg then -v else v

def infinityBits : UInt64 := 0x7ff0000000000000

def nanBits : UInt64 := 0x7ff8000000000000

/-- `inf` or `nan` after an optional sign. -/
def specialFloat : P Value := do
  let neg ← match ← peek with
    | some 43 => do advance 1; pure false
    | some 45 => do advance 1; pure true
    | _ => pure false
  let b ← read
  let i ← get
  if b.extract i (i + 3) == "inf".toUTF8 then
    advance 3
    pure (.float (if neg then infinityBits ||| 0x8000000000000000 else infinityBits))
  else if b.extract i (i + 3) == "nan".toUTF8 then
    advance 3
    pure (.float (if neg then nanBits ||| 0x8000000000000000 else nanBits))
  else soft "invalid floating-point number"

/-- An exponent, from its `e`. -/
def exponent : P Unit := do
  advance 1
  if (← peek) == some 43 || (← peek) == some 45 then advance 1
  cut (zeroPrefixable "invalid floating-point number" "invalid floating-point number\nexpected digit")

/-- A float: an integer part with a fraction, an exponent or both. -/
def float : P Value := do
  let start ← get
  match ← attempt (do
      decInt
      match ← peek with
      | some 46 =>
        advance 1
        cut (zeroPrefixable "invalid floating-point number\nexpected digit"
          "invalid floating-point number\nexpected digit, digit")
        if (← peek) == some 101 || (← peek) == some 69 then exponent
      | some 101 | some 69 => exponent
      | _ => soft "invalid floating-point number") with
  | some () =>
    let b ← read
    let v := decimalValue (stripUnderscores (b.extract start (← get)))
    if v.toBits == infinityBits then failAt true start "invalid floating-point number"
    pure (.float v.toBits)
  | none => specialFloat

/-- Parses digits in a radix; none when the value leaves 64-bit signed range. -/
def radixValue (radix : Nat) (t : String) (neg : Bool) : Option Int :=
  let v := t.toList.foldl (fun acc c =>
    acc * radix + (if c.isDigit then c.toNat - 48 else if c.toNat ≤ 70 then c.toNat - 55 else c.toNat - 87)) 0
  let i : Int := if neg then -(v : Int) else v
  if -Int.ofNat (Nat.pow 2 63) ≤ i && i < Int.ofNat (Nat.pow 2 63) then some i else none

def tooLarge : String := "number too large to fit in target type"

/-- An integer: decimal, or hexadecimal, octal or binary after its prefix. -/
def integer : P Value := do
  let start ← get
  let b ← read
  let two := b.extract start (start + 2)
  let prefixed (radix : Nat) (isD : UInt8 → Bool) (label : String) : P Value := do
    advance 2
    cut (do
      match ← peek with
      | some c => if isD c then advance 1 else soft label
      | none => soft label
      digitRun isD (label ++ "\nexpected digit") (← budget))
    match radixValue radix (stripUnderscores (b.extract (start + 2) (← get))) false with
    | some v => pure (.int v)
    | none => failAt true start tooLarge
  if two == "0x".toUTF8 then prefixed 16 isHex "invalid hexadecimal integer"
  else if two == "0o".toUTF8 then prefixed 8 (fun c => 48 ≤ c && c ≤ 55) "invalid octal integer"
  else if two == "0b".toUTF8 then prefixed 2 (fun c => c == 48 || c == 49) "invalid binary integer"
  else
    decInt
    let t := stripUnderscores (b.extract start (← get))
    let (neg, digits) := match t.toList with
      | '-' :: r => (true, String.ofList r)
      | '+' :: r => (false, String.ofList r)
      | r => (false, String.ofList r)
    match radixValue 10 digits neg with
    | some v => pure (.int v)
    | none => failAt true start tooLarge

/-- Exactly `n` digits as a number. -/
def fixedDigits (n : Nat) : P Nat := do
  let b ← read
  let start ← get
  let stop := scanWhile b isDigit start
  if stop - start < n then soft ""
  set (start + n)
  pure ((b.extract start (start + n)).foldl (fun acc c => acc * 10 + (c.toNat - 48)) 0)

/-- A field of a date or time within `lo..hi`; out of range is a soft
failure, so that a number such as `42` is not taken for an hour. -/
def ranged (n lo hi : Nat) : P Nat := do
  let start ← get
  let v ← fixedDigits n
  if v < lo || v > hi then failAt false start "value is out of range"
  pure v

def expectByte (c : UInt8) : P Unit := do
  if (← peek) == some c then advance 1 else soft ""

/-- A time of day: hours, minutes, seconds and perhaps a fraction. -/
def partialTime : P Unit := do
  let _ ← ranged 2 0 23
  expectByte 58
  cut (do
    let _ ← ranged 2 0 59
    expectByte 58
    let _ ← ranged 2 0 60
    if (← peek) == some 46 then
      if let some d := ← peekAt 1 then
        if isDigit d then do
          advance 1
          skipWhile isDigit)

/-- An offset from UTC: `Z` or a signed hour and minute.  Its failures are
named as such. -/
def timeOffset : P Unit :=
  within "time offset" do
    match ← peek with
    | some 90 | some 122 => advance 1
    | some 43 | some 45 =>
      advance 1
      cut (do
        let _ ← ranged 2 0 23
        expectByte 58
        let _ ← ranged 2 0 59)
    | _ => soft ""

/-- The days of a month. -/
def monthLength (year month : Nat) : Nat :=
  if month == 2 then
    if year % 4 == 0 && (year % 100 != 0 || year % 400 == 0) then 29 else 28
  else if month == 4 || month == 6 || month == 9 || month == 11 then 30
  else 31

/-- A date, a time, or both with an optional offset; its failures are named
as those of a date-time, or of a time when no date leads. -/
def datetime : P Unit := do
  let b ← read
  let start ← get
  if scanWhile b isDigit start == start + 4 && b[start + 4]? == some 45 then within "date-time" do
    let year ← fixedDigits 4
    advance 1
    cut (do
      let month ← ranged 2 1 12
      expectByte 45
      let dayStart ← get
      let day ← ranged 2 1 31
      if monthLength year month < day then failAt true dayStart "value is out of range")
    let _ ← attempt (do
      match ← peek with
      | some 84 | some 116 | some 32 => advance 1
      | _ => soft ""
      partialTime
      let _ ← attempt timeOffset)
  else within "time" partialTime

/-- A value that starts like a number: a date, a float or an integer. -/
def numberLike : P Value := do
  let start ← get
  match ← attempt datetime with
  | some () => do
    let b ← read
    pure (.datetime (textOf (b.extract start (← get))))
  | none =>
    match ← attempt float with
    | some v => pure v
    | none => integer

/-! ## Values -/

def stringLabel : String := "invalid string\nexpected `\"`, `'`"

/-- A literal word such as `true`; a misspelling fails hard when `strict`. -/
def word (strict : Bool) (w : String) (v : Value) : P Value := do
  let b ← read
  let i ← get
  if b.extract i (i + w.utf8ByteSize) == w.toUTF8 then do advance w.utf8ByteSize; pure v
  else failAt strict i stringLabel

/-- Enters an inline pair under its dotted path: tables on the way are made
as dotted tables, and only dotted tables may be extended. -/
def insertInline (key : String × Span) (v : Value) (span : Span) (full : List String) :
    List (String × Span) → Nat → List (String × Span × Value × Span) →
      Except String (List (String × Span × Value × Span))
  | [], _, entries =>
    match lookup key.1 entries with
    | some _ => .error (duplicateKey key.1 none)
    | none => .ok (entries ++ [(key.1, key.2, v, span)])
  | (k, ksp) :: rest, i, entries =>
    match lookup k entries with
    | none => do
      let inner ← insertInline key v span full rest (i + 1) []
      pure (entries ++ [(k, ksp, .inline inner true, span)])
    | some (ksp', .inline inner d, sp) =>
      if !d then .error (duplicateKey k none)
      else do
        let inner ← insertInline key v span full rest (i + 1) inner
        pure (replace k (ksp', .inline inner d, sp) entries)
    | some (_, other, _) => .error (extendWrongType (full.take (i + 1)) other.typeName)

mutual

/-- A value and its span. -/
def value : Nat → P (Value × Span)
  | 0 => soft "recursion limit exceeded"
  | depth + 1 => do
    let start ← get
    let v ← match ← peek with
      | some 34 =>
        if (← countRun 34) ≥ 3 then
          Value.str <$> multiString 34 true isBasicUnescaped "invalid multiline basic string"
        else Value.str <$> basicString
      | some 39 =>
        if (← countRun 39) ≥ 3 then
          Value.str <$> multiString 39 false isLiteralChar "invalid multiline literal string"
        else Value.str <$> literalString
      | some 91 => array depth
      | some 123 => inlineTable depth
      | some 116 => word true "true" (.bool true)
      | some 102 => word true "false" (.bool false)
      | some 105 => word false "inf" (.float infinityBits)
      | some 110 => word false "nan" (.float nanBits)
      | some 95 => relabel "invalid integer\nexpected leading digit" integer
      | some 46 => relabel "invalid floating-point number\nexpected leading digit" float
      | some c =>
        if c == 43 || c == 45 || isDigit c then numberLike else soft stringLabel
      | none => soft ""
    pure (v, ⟨start, ← get⟩)

/-- Array elements after the opening bracket. -/
def arrayItems : Nat → Nat → List (Value × Span) → P (List (Value × Span))
  | 0, _, acc => pure acc.reverse
  | fuel + 1, depth, acc => do
    let back ← get
    match ← attempt (do
        wsCommentNewline (← budget)
        let v ← value depth
        wsCommentNewline (← budget)
        pure v) with
    | none => set back; pure acc.reverse
    | some v =>
      if (← peek) == some 44 then
        advance 1
        arrayItems fuel depth (v :: acc)
      else pure (v :: acc).reverse

def array (depth : Nat) : P Value := do
  if depth == 0 then hard "recursion limit exceeded"
  advance 1
  let items ← cut (arrayItems (← budget) depth [])
  cut (wsCommentNewline (← budget))
  if (← peek) == some 93 then do advance 1; pure (.array items)
  else hard "invalid array\nexpected `]`"

/-- Inline key-value pairs after the opening brace. -/
def inlineItems : Nat → Nat → List (List (String × Span) × Value × Span) →
    P (List (List (String × Span) × Value × Span))
  | 0, _, acc => pure acc.reverse
  | fuel + 1, depth, acc => do
    let back ← get
    match ← attempt key with
    | none => set back; pure acc.reverse
    | some path =>
      let (v, sp) ← cut (do
        if (← peek) != some 61 then soft "expected `.`, `=`"
        advance 1
        ws
        let r ← value depth
        ws
        pure r)
      if (← peek) == some 44 then
        let afterComma ← get
        advance 1
        match ← inlineItems fuel depth ((path, v, sp) :: acc) with
        | items => do
          if items.length == acc.length + 1 then set afterComma
          pure items
      else pure ((path, v, sp) :: acc).reverse

def inlineTable (depth : Nat) : P Value := do
  if depth == 0 then hard "recursion limit exceeded"
  advance 1
  let start ← get
  let pairs ← cut (inlineItems (← budget) depth [])
  ws
  let mut entries : List (String × Span × Value × Span) := []
  for (path, v, sp) in pairs do
    let key := path.getLast?.getD ("", sp)
    let names := path.dropLast.map (·.1)
    match insertInline key v sp names path.dropLast 0 entries with
    | .ok e => entries := e
    | .error msg => failAt true start msg
  if (← peek) == some 125 then do advance 1; pure (.inline entries false)
  else hard "invalid inline table\nexpected `\x7d`"

end

end Reader
end Toml
end PowChain
