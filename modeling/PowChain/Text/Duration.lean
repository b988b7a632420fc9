import PowChain.Text.Space
import PowChain.Text.Escape

/-!
# Human-friendly durations

A duration is written as numbers, each followed by a unit, with optional white
space between them: `1h 30m 15s 250ms`, `2m`, `1.5s`.  The units are
nanoseconds (`ns`, `nsec`, `nanos`), microseconds (`us`, `usec`, `µs`),
milliseconds (`ms`, `msec`, `millis`), seconds (`s`, `sec`, `secs`, `second`,
`seconds`), minutes (`m`, `min`, `mins`, `minute`, `minutes`), hours (`h`,
`hr`, `hrs`, `hour`, `hours`), days, weeks (also `wk`, `wks`), months of 30.44
days and years of 365.25 days (also `yr`, `yrs`).

Every quantity is a 64-bit word: the number, the seconds and the nanoseconds
gathered so far; leaving that range is an overflow.  A number may have a
fractional part.  Up to a minute, a fraction of the unit must come to whole
nanoseconds; from an hour on, to whole seconds: `1.0000010ms`, `0.51m` and
`0.125h` are exact, while `0.001h` (3.6 seconds) is not.  The fraction's
digits times the unit's length must also fit a word, so ten decimals of a
minute are too many; and a nanosecond takes no fraction at all.  Each of
these counts as an overflow.

A lone `0` is the empty duration.  Reading reports the first problem: an
empty text, a missing number (at the offset where the number was looked for),
a character that belongs to no number or unit (at its offset), an unknown or
missing unit, or an overflow.  Each amount is added in two steps: the
nanoseconds carry into the seconds only past a whole second, and the sum is
then normalised, which carries a last whole second of nanoseconds; that carry
beyond the last second a word holds is a fault of its own, and ends reading
at once.
-/

namespace PowChain

/-- A span of time: whole seconds and the nanoseconds beyond them. -/
structure Duration where
  secs : Nat
  nanos : Nat
  deriving DecidableEq, Repr

namespace Duration

def nanosPerSecond : Nat := 1000000000

def ofNanos (n : Nat) : Duration := ⟨n / nanosPerSecond, n % nanosPerSecond⟩

def toNanos (d : Duration) : Nat := d.secs * nanosPerSecond + d.nanos

/-- Why a text is not a duration. -/
inductive Fault where
  | invalidCharacter (offset : Nat)
  | numberExpected (offset : Nat)
  | unknownUnit (unit : String) (value : Nat)
  | numberOverflow
  | empty
  /-- A whole second of nanoseconds carries past the last second. -/
  | carryOverflow
  deriving DecidableEq, Repr

def Fault.message : Fault → String
  | .invalidCharacter o => s!"invalid character at {o}"
  | .numberExpected o => s!"expected number at {o}"
  | .unknownUnit u v =>
    if u.isEmpty then s!"time unit needed, for example {v}sec or {v}ms"
    else "unknown time unit " ++ Text.quoteString u ++
      ", supported units: ns, us/µs, ms, sec, min, hours, days, weeks, months, years (and few variations)"
  | .numberOverflow =>
    "number is too large or cannot be represented without a lack of precision (values below 1ns are not supported)"
  | .empty => "value was empty"
  | .carryOverflow => "overflow in Duration::new"

/-- The units a number may carry. -/
inductive TimeUnit where
  | nanosecond | microsecond | millisecond | second
  | minute | hour | day | week | month | year
  deriving DecidableEq, Repr

namespace TimeUnit

/-- The unit a name spells, with the spellings each unit accepts. -/
def ofName? (u : String) : Option TimeUnit :=
  if u ∈ ["nanos", "nsec", "ns"] then some .nanosecond
  else if u ∈ ["usec", "us", "µs"] then some .microsecond
  else if u ∈ ["millis", "msec", "ms"] then some .millisecond
  else if u ∈ ["seconds", "second", "secs", "sec", "s"] then some .second
  else if u ∈ ["minutes", "minute", "min", "mins", "m"] then some .minute
  else if u ∈ ["hours", "hour", "hr", "hrs", "h"] then some .hour
  else if u ∈ ["days", "day", "d"] then some .day
  else if u ∈ ["weeks", "week", "wk", "wks", "w"] then some .week
  else if u ∈ ["months", "month", "M"] then some .month
  else if u ∈ ["years", "year", "yr", "yrs", "y"] then some .year
  else none

/-- The length of a unit: in nanoseconds for units below a second (`false`),
in seconds from a second on (`true`). -/
def scale : TimeUnit → Nat × Bool
  | .nanosecond => (1, false)
  | .microsecond => (1000, false)
  | .millisecond => (1000000, false)
  | .second => (1, true)
  | .minute => (60, true)
  | .hour => (3600, true)
  | .day => (86400, true)
  | .week => (604800, true)
  | .month => (2630016, true)
  | .year => (31557600, true)

/-- The scale a fraction of the unit is counted in: nanoseconds up to a
minute (`false`), whole seconds from an hour on (`true`). -/
def fractionScale (u : TimeUnit) : Nat × Bool :=
  match u with
  | .second => (nanosPerSecond, false)
  | .minute => (60 * nanosPerSecond, false)
  | u => u.scale

end TimeUnit

/-- The bound of a 64-bit word. -/
def wordLimit : Nat := 18446744073709551616

/-- A product or sum that must stay below `wordLimit`. -/
def word (n : Nat) : Except Fault Nat :=
  if n < wordLimit then .ok n else .error .numberOverflow

/-- A quotient that must be exact. -/
def exactDiv (a b : Nat) : Except Fault Nat :=
  if b != 0 && a % b == 0 then .ok (a / b) else .error .numberOverflow

/-- Digits after a point: their value over the power of ten they fill. -/
structure Fraction where
  numerator : Nat
  denominator : Nat
  deriving DecidableEq, Repr

/-- A fraction of one unit as seconds and nanoseconds, counted exactly in the
unit's fraction scale; a nanosecond takes no fraction. -/
def Fraction.amount (f : Fraction) : TimeUnit → Except Fault (Nat × Nat)
  | .nanosecond => .error .numberOverflow
  | u => do
    let (k, inSeconds) := u.fractionScale
    let part ← exactDiv (← word (f.numerator * k)) f.denominator
    pure (if inSeconds then (part, 0) else (0, part))

def isUnitChar (c : Char) : Bool := c.isAlpha || c == 'µ'

/-- A character with its byte offset. -/
abbrev Located := List (Nat × Char)

/-- The offset of the head, or `stop` at the end. -/
def offsetOf (stop : Nat) : Located → Nat
  | [] => stop
  | (o, _) :: _ => o

/-- Skips white space to the first digit of a number; none at the end.  A
problem is reported at `off`, where the search began. -/
def firstDigit (off : Nat) : Located → Except Fault (Option (Nat × Located))
  | [] => .ok none
  | (_, c) :: rest =>
    if c.isDigit then .ok (some (c.toNat - 48, rest))
    else if Text.isSpace c then firstDigit off rest
    else .error (.numberExpected off)

/-- How the whole part of a number ended. -/
inductive Ending where
  /-- At the first letter of the unit, which starts at `start`. -/
  | unit (start : Nat)
  /-- At a point, at `offset`. -/
  | point (offset : Nat)
  /-- At the end of the text. -/
  | atEnd
  deriving DecidableEq, Repr

/-- More digits of a number, white space allowed, up to the first letter of
the unit (taken), a point (taken) or the end.  `off` is the offset of the
next character. -/
def wholePart (stop : Nat) (n off : Nat) : Located → Except Fault (Nat × Ending × Located)
  | [] => .ok (n, .atEnd, [])
  | (o, c) :: rest =>
    if c.isDigit then do
      let n ← word (n * 10 + (c.toNat - 48))
      wholePart stop n (offsetOf stop rest) rest
    else if Text.isSpace c then wholePart stop n (offsetOf stop rest) rest
    else if isUnitChar c then .ok (n, .unit o, rest)
    else if c == '.' then .ok (n, .point o, rest)
    else .error (.invalidCharacter off)

/-- The digits after a point, white space allowed, up to the first letter of
the unit (left in place) or the end.  `off` is where the last character
taken ended (at first, the point); a problem is reported there, and the unit
starts there.  At least one digit is needed. -/
def fractionPart (stop : Nat) (f : Fraction) (off : Nat) :
    Located → Except Fault (Fraction × Nat × Located)
  | [] => if f.denominator == 1 then .error (.invalidCharacter off) else .ok (f, off, [])
  | (o, c) :: rest =>
    if c.isDigit then do
      let numerator ← word (f.numerator * 10 + (c.toNat - 48))
      let denominator ← word (f.denominator * 10)
      fractionPart stop ⟨numerator, denominator⟩ (offsetOf stop rest) rest
    else if Text.isSpace c then fractionPart stop f (offsetOf stop rest) rest
    else if isUnitChar c then
      if f.denominator == 1 then .error (.invalidCharacter off) else .ok (f, off, (o, c) :: rest)
    else .error (.invalidCharacter off)

/-- The unit's letters after those taken: where the unit ends, the rest, and
the first digit of the next number if one follows at once.  `off` is the
offset of the next character. -/
def unitPart (stop : Nat) (off : Nat) : Located → Except Fault (Nat × Located × Option Nat)
  | [] => .ok (off, [], none)
  | (_, c) :: rest =>
    if c.isDigit then .ok (off, rest, some (c.toNat - 48))
    else if Text.isSpace c then .ok (off, rest, none)
    else if isUnitChar c then unitPart stop (offsetOf stop rest) rest
    else .error (.invalidCharacter off)

/-- The duration of `secs` seconds and `nanos` nanoseconds, with whole
seconds of nanoseconds carried. -/
def normalize (secs nanos : Nat) : Except Fault Duration :=
  if nanos < nanosPerSecond then .ok ⟨secs, nanos⟩
  else if secs + nanos / nanosPerSecond < wordLimit then
    .ok ⟨secs + nanos / nanosPerSecond, nanos % nanosPerSecond⟩
  else .error .carryOverflow

/-- Adds seconds and nanoseconds; the nanoseconds carry into the seconds
only when they pass a whole second, and the sum is then normalised. -/
def addParts (d : Duration) (secs nanos : Nat) : Except Fault Duration := do
  let nanos ← word (d.nanos + nanos)
  let (secs, nanos) ←
    if nanos > nanosPerSecond then do
      pure (← word (secs + nanos / nanosPerSecond), nanos % nanosPerSecond)
    else pure (secs, nanos)
  normalize (← word (d.secs + secs)) nanos

/-- Adds `n` (and a fraction of it) of the unit spelled by `text[start, stop)`. -/
def addUnit (text : String) (d : Duration) (n : Nat) (frac : Option Fraction)
    (start stop : Nat) : Except Fault Duration := do
  let name := (String.fromUTF8? (text.toUTF8.extract start stop)).getD ""
  match TimeUnit.ofName? name with
  | none => throw (.unknownUnit name n)
  | some u =>
    let (k, inSeconds) := u.scale
    let whole ← word (n * k)
    let d ← if inSeconds then d.addParts whole 0 else d.addParts 0 whole
    match frac with
    | none => pure d
    | some f =>
      let (secs, nanos) ← f.amount u
      d.addParts secs nanos

/-- Numbers and units from the first digit `n` on, adding to `d`. -/
def terms (text : String) (stop : Nat) : Nat → Duration → Nat → Located → Except Fault Duration
  | 0, d, _, _ => .ok d
  | fuel + 1, d, n, s => do
    let (n, ending, s) ← wholePart stop n (offsetOf stop s) s
    let (frac, start, s) ← match ending with
      | .unit start => pure (none, start, s)
      | .point offset => do
        let (f, start, s) ← fractionPart stop ⟨0, 1⟩ offset s
        pure (some f, start, s)
      | .atEnd => pure (none, stop, s)
    let (unitEnd, s, next) ← unitPart stop (offsetOf stop s) s
    let d ← addUnit text d n frac start unitEnd
    match next with
    | some k => terms text stop fuel d k s
    | none =>
      match ← firstDigit (offsetOf stop s) s with
      | none => pure d
      | some (k, s) => terms text stop fuel d k s

/-- Reads a duration; a lone `0` needs no unit. -/
def parse (text : String) : Except Fault Duration := do
  if text == "0" then return ⟨0, 0⟩
  let chars : Located := (text.toList.foldl (fun (acc : List (Nat × Char) × Nat) c =>
    (acc.1 ++ [(acc.2, c)], acc.2 + c.utf8Size)) ([], 0)).1
  let stop := text.utf8ByteSize
  match ← firstDigit 0 chars with
  | none => throw .empty
  | some (k, s) => terms text stop (chars.length + 1) ⟨0, 0⟩ k s

end Duration
end PowChain
