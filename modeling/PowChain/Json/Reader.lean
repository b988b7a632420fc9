import PowChain.Decimal.Shortest
import PowChain.Text.Escape
import PowChain.Bytes.Basic

/-!
# Reading JSON text

A JSON reader that walks the text once, left to right, the way a streaming
deserializer does: a typed reader asks for the next value, and the first
fault on the way is reported with its line and column.  Positions count
bytes: a fault found after consuming a byte is reported at the column of that
byte, a fault found by looking at the next byte is reported at the column of
that byte counted from one.  A fault raised by a typed reader (a missing
field, a value of the wrong type) is placed where the reader stood when it
gave up.

Numbers follow the binary64 reading of the deserializer: an integer that
fits 64 bits stays an integer, anything else becomes a double built from a
64-bit significand and a power of ten.
-/

namespace PowChain
namespace Json

/-- The kinds of fault. -/
inductive Code where
  | message (m : String)
  | eofList
  | eofObject
  | eofString
  | eofValue
  | expectedColon
  | expectedListCommaOrEnd
  | expectedObjectCommaOrEnd
  | expectedIdent
  | expectedValue
  | invalidEscape
  | invalidNumber
  | numberOutOfRange
  | controlChar
  | keyMustBeString
  | loneLeadingSurrogate
  | trailingComma
  | trailingChars
  | unexpectedEndOfHexEscape
  | invalidUnicodeCodePoint
  deriving DecidableEq, Repr

def Code.text : Code → String
  | .message m => m
  | .eofList => "EOF while parsing a list"
  | .eofObject => "EOF while parsing an object"
  | .eofString => "EOF while parsing a string"
  | .eofValue => "EOF while parsing a value"
  | .expectedColon => "expected `:`"
  | .expectedListCommaOrEnd => "expected `,` or `]`"
  | .expectedObjectCommaOrEnd => "expected `,` or `\x7d`"
  | .expectedIdent => "expected ident"
  | .expectedValue => "expected value"
  | .invalidEscape => "invalid escape"
  | .invalidNumber => "invalid number"
  | .numberOutOfRange => "number out of range"
  | .controlChar => "control character (\\u0000-\\u001F) found while parsing a string"
  | .keyMustBeString => "key must be a string"
  | .loneLeadingSurrogate => "lone leading surrogate in hex escape"
  | .trailingComma => "trailing comma"
  | .trailingChars => "trailing characters"
  | .unexpectedEndOfHexEscape => "unexpected end of hex escape"
  | .invalidUnicodeCodePoint => "invalid unicode code point"

/-- A fault and where it was found; line zero means not yet placed. -/
structure Error where
  code : Code
  line : Nat := 0
  column : Nat := 0
  deriving DecidableEq, Repr

def Error.message (e : Error) : String :=
  if e.line == 0 then e.code.text
  else s!"{e.code.text} at line {e.line} column {e.column}"

/-- Line and column of byte offset `i`. -/
def position (b : ByteArray) (i : Nat) : Nat × Nat :=
  let pre := (b.extract 0 i).toList
  let lineStart := pre.length - (pre.reverse.takeWhile (· != 10)).length
  (1 + (pre.take lineStart).count 10, i - lineStart)

/-- A reader over the text bytes, holding the offset of the next byte.  A
fault leaves the offset where the fault arose, so a handler sees how far the
reader got. -/
abbrev P (α : Type) := ReaderT ByteArray (ExceptT Error (StateM Nat)) α

def peek : P (Option UInt8) := do
  let b ← read
  let i ← get
  pure (if h : i < b.size then some b[i] else none)

def peekOrNull : P UInt8 := do pure ((← peek).getD 0)

def eat : P Unit := modify (· + 1)

def nextChar : P (Option UInt8) := do
  let c ← peek
  if c.isSome then eat
  pure c

/-- A fault placed at the last byte consumed. -/
def fail {α : Type} (c : Code) : P α := do
  let b ← read
  let (l, col) := position b (← get)
  throw ⟨c, l, col⟩

/-- A fault placed at the next byte. -/
def failPeek {α : Type} (c : Code) : P α := do
  let b ← read
  let (l, col) := position b (min b.size ((← get) + 1))
  throw ⟨c, l, col⟩

/-- Places a typed reader's fault where the reader stands now. -/
def place (e : Error) : P Error := do
  if e.line != 0 then pure e
  else
    let b ← read
    let (l, col) := position b (← get)
    pure { e with line := l, column := col }

/-- Runs `x`; a fault that is not yet placed is placed where the reader
stands after it. -/
def placing {α : Type} (x : P α) : P α :=
  tryCatch x fun e => do throw (← place e)

def isSpace (c : UInt8) : Bool := c == 32 || c == 10 || c == 9 || c == 13

def skipSpaceFrom (b : ByteArray) (i : Nat) : Nat :=
  if h : i < b.size then (if isSpace b[i] then skipSpaceFrom b (i + 1) else i) else i
termination_by b.size - i

/-- Skips white space and shows the next byte. -/
def parseWhitespace : P (Option UInt8) := do
  let b ← read
  set (skipSpaceFrom b (← get))
  peek

def skipDigitsFrom (b : ByteArray) (i : Nat) : Nat :=
  if h : i < b.size then (if 48 ≤ b[i] && b[i] ≤ 57 then skipDigitsFrom b (i + 1) else i) else i
termination_by b.size - i

def skipDigits : P Unit := do
  let b ← read
  set (skipDigitsFrom b (← get))

/-- Consumes the rest of an expected word (`ull`, `rue`, `alse`). -/
def parseIdent (rest : List UInt8) : P Unit :=
  rest.forM fun c => do
    match ← nextChar with
    | some d => if d != c then fail .expectedIdent
    | none => fail .eofValue

/-! ## Strings -/

def hexVal (c : UInt8) : Option Nat :=
  if 48 ≤ c && c ≤ 57 then some (c.toNat - 48)
  else if 97 ≤ c && c ≤ 102 then some (c.toNat - 87)
  else if 65 ≤ c && c ≤ 70 then some (c.toNat - 55)
  else none

/-- Four hexadecimal digits of a `\u` escape. -/
def hexEscape : P Nat := do
  let b ← read
  let i ← get
  if i + 4 ≤ b.size then
    set (i + 4)
    match hexVal (Bytes.getD b i), hexVal (Bytes.getD b (i + 1)), hexVal (Bytes.getD b (i + 2)),
      hexVal (Bytes.getD b (i + 3)) with
    | some a, some c, some d, some e => pure (((a * 16 + c) * 16 + d) * 16 + e)
    | _, _, _, _ => fail .invalidEscape
  else
    set b.size
    fail .eofString

/-- The UTF-8 bytes of a code point (surrogates too, as three bytes). -/
def utf8Of (n : Nat) : List UInt8 :=
  if n < 0x80 then [n.toUInt8]
  else if n < 0x800 then [(0xc0 + n / 64).toUInt8, (0x80 + n % 64).toUInt8]
  else if n < 0x10000 then
    [(0xe0 + n / 4096).toUInt8, (0x80 + n / 64 % 64).toUInt8, (0x80 + n % 64).toUInt8]
  else
    [(0xf0 + n / 262144).toUInt8, (0x80 + n / 4096 % 64).toUInt8, (0x80 + n / 64 % 64).toUInt8,
      (0x80 + n % 64).toUInt8]

/-- The code unit `n` of a `\u` escape, with a second escape when `n` is a
leading surrogate.  `strict` refuses lone surrogates (text); otherwise they
are kept (bytes), and a second escape that does not complete the pair starts
afresh. -/
def unicodeEscape (strict : Bool) : Nat → Nat → List UInt8 → P (List UInt8)
  | 0, _, acc => pure acc
  | fuel + 1, n, acc => do
    if strict && 0xdc00 ≤ n && n ≤ 0xdfff then fail .loneLeadingSurrogate
    else if n < 0xd800 || n > 0xdbff then pure (acc ++ utf8Of n)
    else
      match ← peek with
      | none => fail .eofString
      | some c =>
        if c != 92 then
          if strict then do eat; fail .unexpectedEndOfHexEscape
          else pure (acc ++ utf8Of n)
        else
          eat
          match ← peek with
          | none => fail .eofString
          | some c2 =>
            if c2 != 117 then
              if strict then do eat; fail .unexpectedEndOfHexEscape
              else do
                -- the backslash starts an ordinary escape
                set ((← get) - 1)
                pure (acc ++ utf8Of n)
            else
              eat
              let n2 ← hexEscape
              if n2 < 0xdc00 || n2 > 0xdfff then
                if strict then fail .loneLeadingSurrogate
                else unicodeEscape strict fuel n2 (acc ++ utf8Of n)
              else pure (acc ++ utf8Of (((n - 0xd800) * 1024 + (n2 - 0xdc00)) + 0x10000))

def fuelOf : P Nat := do pure ((← read).size + 1)

/-- One escape after a backslash. -/
def escape (strict : Bool) : P (List UInt8) := do
  match ← nextChar with
  | none => fail .eofString
  | some c =>
    if c == 34 then pure [34] else if c == 92 then pure [92] else if c == 47 then pure [47]
    else if c == 98 then pure [8] else if c == 102 then pure [12] else if c == 110 then pure [10]
    else if c == 114 then pure [13] else if c == 116 then pure [9]
    else if c == 117 then do unicodeEscape strict (← fuelOf) (← hexEscape) []
    else fail .invalidEscape

/-- The rest of a string after its opening quote, as bytes; raw control
characters are refused only when `strict` (text). -/
def stringBody (strict : Bool) : Nat → Array UInt8 → P ByteArray
  | 0, acc => pure ⟨acc⟩
  | fuel + 1, acc => do
    match ← nextChar with
    | none => fail .eofString
    | some c =>
      if c == 34 then pure ⟨acc⟩
      else if c == 92 then do
        let more ← escape strict
        stringBody strict fuel (acc ++ more.toArray)
      else if strict && c < 32 then fail .controlChar
      else stringBody strict fuel (acc.push c)

/-- A string after its opening quote. -/
def parseStr : P String := do
  let raw ← stringBody true (← fuelOf) #[]
  match String.fromUTF8? raw with
  | some t => pure t
  | none => fail .invalidUnicodeCodePoint

/-- A string after its opening quote, as raw bytes (lone surrogates kept). -/
def parseStrBytes : P ByteArray := do stringBody false (← fuelOf) #[]

/-- Skips a string after its opening quote. -/
def ignoreStr : Nat → P Unit
  | 0 => pure ()
  | fuel + 1 => do
    match ← peek with
    | none => fail .eofString
    | some c =>
      if c == 34 then eat
      else if c == 92 then do
        eat
        match ← nextChar with
        | none => fail .eofString
        | some e =>
          if e == 117 then do let _ ← hexEscape
          else if !(e == 34 || e == 92 || e == 47 || e == 98 || e == 102 || e == 110 || e == 114 || e == 116) then
            fail .invalidEscape
        ignoreStr fuel
      else if c < 32 then fail .controlChar
      else do eat; ignoreStr fuel

/-! ## Numbers -/

/-- A number as the deserializer sees it. -/
inductive Num where
  | unsigned (n : Nat)
  | signed (i : Int)
  | double (f : Float)

/-- The powers of ten that are exact doubles, and the nearest doubles above. -/
def pow10 (i : Nat) : Float := Float.ofScientific 1 false i

/-- `significand · 10^exponent` by one multiplication or division, with
division by `1e308` first for exponents below −308. -/
def fromParts (positive : Bool) (significand : Nat) (exponent : Int) : P Float := do
  let f0 := significand.toUInt64.toFloat
  let rec go (f : Float) (e : Int) : Nat → P Float
    | 0 => pure f
    | fuel + 1 =>
      if e.natAbs ≤ 308 then
        if e ≥ 0 then
          let g := f * pow10 e.natAbs
          if g.isInf then fail .numberOutOfRange else pure g
        else pure (f / pow10 e.natAbs)
      else if f == 0.0 then pure f
      else if e ≥ 0 then fail .numberOutOfRange
      else go (f / 1e308) (e + 308) fuel
  let f ← go f0 exponent 64
  pure (if positive then f else -f)

def wordMax : Nat := Nat.pow 2 64 - 1

/-- Whether `s * 10 + d` leaves 64 bits. -/
def overflows (s d : Nat) : Bool := s * 10 + d > wordMax

def isDigit (c : UInt8) : Bool := 48 ≤ c && c ≤ 57

/-- The value of an exponent's digits after the first, `acc` so far from
`taken` digits; or, once it would pass `2^31 - 1`, the number of digits up to
and including the one that takes it there. -/
def exponentValue (acc taken : Nat) : List Nat → Nat ⊕ Nat
  | [] => .inl acc
  | d :: rest =>
    if acc * 10 + d > 2147483647 then .inr (taken + 1)
    else exponentValue (acc * 10 + d) (taken + 1) rest

/-- The exponent part, after `e`. -/
def parseExponent (positive : Bool) (significand : Nat) (start : Int) : P Float := do
  eat
  let c ← peekOrNull
  let positiveExp ← if c == 43 then do eat; pure true else if c == 45 then do eat; pure false else pure true
  match ← nextChar with
  | none => fail .eofValue
  | some d =>
    if !isDigit d then fail .invalidNumber
    else
      let b ← read
      let i ← get
      let j := skipDigitsFrom b i
      let digits := (b.extract i j).toList.map fun x => x.toNat - 48
      match exponentValue (d.toNat - 48) 1 digits with
      | .inl exp =>
        set j
        let final : Int := if positiveExp then start + (exp : Int) else start - (exp : Int)
        fromParts positive significand final
      | .inr taken =>
        -- past the largest exponent: too large, or else zero
        if significand != 0 && positiveExp then do set (i - 1 + taken); fail .numberOutOfRange
        else do set j; pure (if positive then 0.0 else -0.0)

/-- The digits after a decimal point. -/
def parseDecimal (positive : Bool) (significand : Nat) (start : Int) : P Float := do
  eat
  let b ← read
  let i ← get
  let j := skipDigitsFrom b i
  let digits := (b.extract i j).toList.map fun x => x.toNat - 48
  -- digits are taken while the significand fits 64 bits; the rest are skipped
  let rec take (s : Nat) (n : Nat) : List Nat → Nat × Nat
    | [] => (s, n)
    | d :: rest => if overflows s d then (s, n) else take (s * 10 + d) (n + 1) rest
  let (s, n) := take significand 0 digits
  set j
  if digits.isEmpty then
    match ← peek with
    | some _ => failPeek .invalidNumber
    | none => failPeek .eofValue
  else
    let c ← peekOrNull
    if c == 101 || c == 69 then parseExponent positive s (start - n)
    else fromParts positive s (start - n)

/-- A number after its sign. -/
def parseInteger (positive : Bool) : P Num := do
  match ← nextChar with
  | none => fail .eofValue
  | some c =>
    if c == 48 then
      let d ← peekOrNull
      if isDigit d then failPeek .invalidNumber else afterDigits 0
    else if 49 ≤ c && c ≤ 57 then
      let b ← read
      let i ← get
      let j := skipDigitsFrom b i
      let digits := (b.extract (i - 1) j).toList.map fun x => x.toNat - 48
      let rec take (s : Nat) (n : Nat) : List Nat → Nat × Nat
        | [] => (s, n)
        | d :: rest => if overflows s d then (s, n) else take (s * 10 + d) (n + 1) rest
      let (s, n) := take 0 0 digits
      if n < digits.length then
        -- too long for 64 bits: the remaining digits only scale
        set j
        let extra : Int := digits.length - n
        let e ← peekOrNull
        if e == 46 then pure (.double (← parseDecimal positive s extra))
        else if e == 101 || e == 69 then pure (.double (← parseExponent positive s extra))
        else pure (.double (← fromParts positive s extra))
      else
        set j
        afterDigits s
    else fail .invalidNumber
where
  afterDigits (s : Nat) : P Num := do
    let c ← peekOrNull
    if c == 46 then pure (.double (← parseDecimal positive s 0))
    else if c == 101 || c == 69 then pure (.double (← parseExponent positive s 0))
    else if positive then pure (.unsigned s)
    else if s == 0 || s > Nat.pow 2 63 then pure (.double (-(s.toUInt64.toFloat)))
    else pure (.signed (-(s : Int)))

/-- Skips a number after its sign, checking its form. -/
def ignoreNumber : P Unit := do
  let c ← peekOrNull
  if c == 48 then
    eat
    if isDigit (← peekOrNull) then failPeek .invalidNumber
  else if 49 ≤ c && c ≤ 57 then do eat; skipDigits
  else
    if (← peek).isSome then eat
    fail .invalidNumber
  if (← peekOrNull) == 46 then
    eat
    let i ← get
    skipDigits
    if (← get) == i then failPeek .invalidNumber
  let e ← peekOrNull
  if e == 101 || e == 69 then
    eat
    let s ← peekOrNull
    if s == 43 || s == 45 then eat
    match ← nextChar with
    | some d => if !isDigit d then fail .invalidNumber
    | none => fail .invalidNumber
    skipDigits

/-! ## What a value looks like to a typed reader -/

/-- A value found where another was expected. -/
inductive Unexpected where
  | unsigned (n : Nat)
  | signed (i : Int)
  | double (f : Float)
  | str (s : String)
  | bool (b : Bool)
  | unit
  | seq
  | map
  | bytes

def Unexpected.text : Unexpected → String
  | .unsigned n => s!"integer `{n}`"
  | .signed i => s!"integer `{i}`"
  | .double f => "floating point `" ++ Shortest.render f.toBits ++ "`"
  | .str s => "string " ++ Text.quoteString s
  | .bool b => s!"boolean `{b}`"
  | .unit => "null"
  | .seq => "sequence"
  | .map => "map"
  | .bytes => "byte array"

def Num.unexpected : Num → Unexpected
  | .unsigned n => .unsigned n
  | .signed i => .signed i
  | .double f => .double f

def invalidType (u : Unexpected) (exp : String) : Error :=
  ⟨.message s!"invalid type: {u.text}, expected {exp}", 0, 0⟩

def invalidValue (u : Unexpected) (exp : String) : Error :=
  ⟨.message s!"invalid value: {u.text}, expected {exp}", 0, 0⟩

def invalidLength (n : Nat) (exp : String) : Error :=
  ⟨.message s!"invalid length {n}, expected {exp}", 0, 0⟩

def missingField (f : String) : Error := ⟨.message s!"missing field `{f}`", 0, 0⟩

def duplicateField (f : String) : Error := ⟨.message s!"duplicate field `{f}`", 0, 0⟩

def custom (m : String) : Error := ⟨.message m, 0, 0⟩

/-- The fault for a value of the wrong kind: the value is read (if it is a
word, number or string) and reported as found. -/
def invalidHere {α : Type} (exp : String) : P α := do
  let c ← peekOrNull
  let e ←
    if c == 110 then do eat; parseIdent [117, 108, 108]; pure (invalidType .unit exp)
    else if c == 116 then do eat; parseIdent [114, 117, 101]; pure (invalidType (.bool true) exp)
    else if c == 102 then do eat; parseIdent [97, 108, 115, 101]; pure (invalidType (.bool false) exp)
    else if c == 45 then do eat; let n ← parseInteger false; pure (invalidType n.unexpected exp)
    else if isDigit c then do let n ← parseInteger true; pure (invalidType n.unexpected exp)
    else if c == 34 then do eat; let s ← parseStr; pure (invalidType (.str s) exp)
    else if c == 91 then pure (invalidType .seq exp)
    else if c == 123 then pure (invalidType .map exp)
    else failPeek .expectedValue
  throw (← place e)

end Json
end PowChain
