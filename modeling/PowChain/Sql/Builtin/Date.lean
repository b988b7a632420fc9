import PowChain.Sql.Builtin.Text
import PowChain.Sql.NumberText

/-!
# Dates and times

`date`, `time`, `datetime`, `julianday`, `unixepoch`, `strftime` and
`timediff` read a moment from their first argument and change it by the
modifiers after it.

A moment is held as a count of milliseconds from noon of the first julian
day (`jd`), or as a year, month and day, or as an hour, minute and seconds,
or several of these at once; each view is computed from another when it is
needed.  The calendar is the proleptic Gregorian one, from the year -4713
to 9999, and the computations follow the usual julian-day formulas, with
doubles where seconds have fractions.

* A moment is written `YYYY-MM-DD`, optionally followed (after blanks or a
  `T`) by `HH:MM`, `HH:MM:SS` or `HH:MM:SS.FFF` and a zone `+HH:MM`,
  `-HH:MM` or `Z`; or a time alone (of the day 2000-01-01); or `now`; or a
  number, a julian day unless a modifier says otherwise.
* Modifiers: `NNN days` (also seconds, minutes, hours, months, years, with
  or without the final `s`), `+HH:MM:SS`, `+YYYY-MM-DD [HH:MM]`,
  `start of month|year|day`, `weekday N`, `unixepoch`, `julianday`, `auto`,
  `localtime`, `utc`, `subsec`.  Local time is universal time here.
* Anything that cannot be read, or a moment outside the calendar, gives
  null.
-/

namespace PowChain
namespace Sql
namespace Date

/-- Milliseconds in a day. -/
def dayMs : Int := 86400000

/-- The julian-day count, in milliseconds, of 1970-01-01 00:00:00. -/
def unixEpochJd : Int := 210866760000000

/-- The last millisecond of 9999-12-31, as a julian-day count. -/
def maxJd : Int := 464269060799999

/-- Whether a julian-day count lies in the calendar. -/
def validJd (jd : Int) : Bool := 0 ≤ jd && jd ≤ maxJd

/-- A double cut toward zero to an integer, as a cast to an integer does. -/
def truncate (f : Float) : Int :=
  if f < 0 then -Int.ofNat (-f).toUInt64.toNat else Int.ofNat f.toUInt64.toNat

/-- The double nearest to an integer. -/
def toFloat (i : Int) : Float := Float.ofBits (realOfInt i)

/-- A moment and which of its views hold. -/
structure Moment where
  /-- Milliseconds from noon of julian day 0. -/
  jd : Int := 0
  year : Int := 0
  month : Int := 0
  day : Int := 0
  hour : Int := 0
  minute : Int := 0
  /-- The zone's offset from universal time, in minutes. -/
  zone : Int := 0
  /-- The seconds, or the number the moment was given as, while `raw`. -/
  seconds : Float := 0
  hasJd : Bool := false
  /-- Whether the moment is still the bare number it was given as. -/
  raw : Bool := false
  hasDate : Bool := false
  hasTime : Bool := false
  /-- Whether the zone has yet to be taken off the time. -/
  hasZone : Bool := false
  /-- Whether a zone was written, so that the time is universal. -/
  zoneGiven : Bool := false
  failed : Bool := false
  /-- Whether the seconds are written with their milliseconds. -/
  subsec : Bool := false

namespace Moment

/-- The moment a failure leaves: nothing but the failure. -/
def error : Moment := { failed := true }

/-- Forgets the date, time and zone views, which the count replaces. -/
def clearViews (p : Moment) : Moment := { p with hasDate := false, hasTime := false, hasZone := false }

/-- The julian-day count from the date (2000-01-01 when there is none) and
the time, less the zone.  A year outside the calendar, or a bare number,
fails. -/
def computeJd (p : Moment) : Moment :=
  if p.hasJd then p
  else
    let (y, m, d) := if p.hasDate then (p.year, p.month, p.day) else (2000, 1, 1)
    if y < -4713 || y > 9999 || p.raw then error
    else
      let (y, m) := if m ≤ 2 then (y - 1, m + 12) else (y, m)
      let a := y.tdiv 100
      let b := 2 - a + a.tdiv 4
      let x1 := (36525 * (y + 4716)).tdiv 100
      let x2 := (306001 * (m + 1)).tdiv 10000
      let p := { p with jd := (x1 + x2 + d + b) * dayMs - 131716800000, hasJd := true }
      if p.hasTime then
        let jd := p.jd + p.hour * 3600000 + p.minute * 60000 + truncate (p.seconds * 1000 + 0.5)
        if p.hasZone then { p.clearViews with jd := jd - p.zone * 60000 } else { p with jd }
      else p

/-- The year, month and day of the count (2000-01-01 when there is none). -/
def computeDate (p : Moment) : Moment :=
  if p.hasDate then p
  else if !p.hasJd then { p with year := 2000, month := 1, day := 1, hasDate := true }
  else if !validJd p.jd then error
  else
    let z := (p.jd + 43200000).tdiv dayMs
    let a := truncate ((toFloat z - 1867216.25) / 36524.25)
    let a := z + 1 + a - a.tdiv 4
    let b := a + 1524
    let c := truncate ((toFloat b - 122.1) / 365.25)
    let d := (36525 * (c % 32768)).tdiv 100
    let e := truncate (toFloat (b - d) / 30.6001)
    let x1 := truncate (30.6001 * toFloat e)
    let month := if e < 14 then e - 1 else e - 13
    { p with day := b - d - x1, month, year := if month > 2 then c - 4716 else c - 4715, hasDate := true }

/-- The hour, minute and seconds of the count. -/
def computeTime (p : Moment) : Moment :=
  if p.hasTime then p
  else
    let p := p.computeJd
    let ms := (p.jd + 43200000).tmod dayMs
    let minutes := ms.tdiv 60000
    { p with seconds := toFloat (ms.tmod 60000) / 1000.0, minute := minutes.tmod 60,
             hour := minutes.tdiv 60, raw := false, hasTime := true }

/-- Both the date and the time of the count. -/
def computeAll (p : Moment) : Moment := p.computeDate.computeTime

/-- A moment given as a number: a julian day when it is one. -/
def setRaw (p : Moment) (r : Float) : Moment :=
  let p := { p with seconds := r, raw := true }
  if r ≥ 0 && r < 5373484.5 then { p with jd := truncate (r * 86400000.0 + 0.5), hasJd := true } else p

/-- The moment `now`, a count in milliseconds from 1970. -/
def atNow (p : Moment) (now : Int) : Moment := { p with jd := now + unixEpochJd, hasJd := true }

end Moment

/-! ## Reading moments -/

/-- A field of digits: how many, the least and greatest value, and the
character that must follow it, when another field does. -/
structure Field where
  width : Nat
  least : Nat
  most : Nat
  after : Option UInt8 := none

/-- The value of exactly `k` digits at the start of a text, and the rest. -/
def fixedDigits : Nat → List UInt8 → Nat → Option (Nat × List UInt8)
  | 0, l, acc => some (acc, l)
  | _ + 1, [], _ => none
  | k + 1, b :: rest, acc => if isDigitUnit b then fixedDigits k rest (acc * 10 + (b.toNat - 48)) else none

/-- The values of the fields at the start of a text, as many as can be
read in turn. -/
def readFields : List Field → List UInt8 → List Nat
  | [], _ => []
  | f :: fs, l =>
    match fixedDigits f.width l 0 with
    | none => []
    | some (v, rest) =>
      if v < f.least || v > f.most then []
      else
        match f.after with
        | none => [v]
        | some c => if rest.head? == some c then v :: readFields fs (rest.drop 1) else []

def dateFields : List Field := [⟨4, 0, 14712, some 45⟩, ⟨2, 1, 12, some 45⟩, ⟨2, 1, 31, none⟩]
def clockFields : List Field := [⟨2, 0, 24, some 58⟩, ⟨2, 0, 59, none⟩]
def secondFields : List Field := [⟨2, 0, 59, none⟩]
def zoneFields : List Field := [⟨2, 0, 14, some 58⟩, ⟨2, 0, 59, none⟩]

/-- The fields of a shift by years, months and days, with a year of
`width` digits. -/
def shiftFields (width : Nat) : List Field := [⟨width, 0, 14712, some 45⟩, ⟨2, 0, 12, some 45⟩, ⟨2, 0, 31, none⟩]

/-- Whether a text is a word, without regard to ASCII case. -/
def sameWord (l : List UInt8) (w : String) : Bool := l.map Text.lowerByte == w.toUTF8.toList

/-- Whether a text starts with a word, without regard to ASCII case. -/
def startsWord (l : List UInt8) (w : String) : Bool :=
  (l.take w.utf8ByteSize).map Text.lowerByte == w.toUTF8.toList

/-- Reads a zone after a time: blanks, then `+HH:MM`, `-HH:MM` or `Z`, then
blanks to the end.  Nothing at all is no zone. -/
def parseZone (l : List UInt8) (p : Moment) : Option Moment :=
  let l := dropSpaces l
  let p := { p with zone := 0 }
  let finish (rest : List UInt8) (p : Moment) : Option Moment :=
    if (dropSpaces rest).isEmpty then some { p with zoneGiven := true } else none
  match l with
  | [] => some p
  | c :: rest =>
    if c == 45 || c == 43 then
      match readFields zoneFields rest with
      | [h, m] => finish (rest.drop 5) { p with zone := (if c == 45 then -1 else 1) * (Int.ofNat m + Int.ofNat h * 60) }
      | _ => none
    else if c == 90 || c == 122 then finish rest p
    else none

/-- The digits of a fraction, read as a double, with the power of ten that
scales it. -/
def fractionDigits : List UInt8 → Float → Float → Float × Float × List UInt8
  | [], ms, scale => (ms, scale, [])
  | b :: rest, ms, scale =>
    if isDigitUnit b then fractionDigits rest (ms * 10.0 + Float.ofNat (b.toNat - 48)) (scale * 10.0)
    else (ms, scale, b :: rest)

/-- Reads `HH:MM`, `HH:MM:SS` or `HH:MM:SS.FFF`, then a zone. -/
def parseTime (l : List UInt8) (p : Moment) : Option Moment :=
  match readFields clockFields l with
  | [h, m] =>
    let l := l.drop 5
    let secs : Option (Nat × Float × List UInt8) := match l with
      | 58 :: rest =>
        match readFields secondFields rest with
        | [s] =>
          let rest := rest.drop 2
          match rest with
          | 46 :: d :: more =>
            if isDigitUnit d then
              let (ms, scale, more) := fractionDigits (d :: more) 0 1
              some (s, ms / scale, more)
            else some (s, 0, rest)
          | _ => some (s, 0, rest)
        | _ => none
      | _ => some (0, 0, l)
    match secs with
    | none => none
    | some (s, frac, rest) =>
      let p := { p with hasJd := false, raw := false, hasTime := true, hour := Int.ofNat h,
                        minute := Int.ofNat m, seconds := Float.ofNat s + frac }
      (parseZone rest p).map fun p => { p with hasZone := p.zone != 0 }
  | _ => none

/-- Reads `YYYY-MM-DD` (a year may have a minus sign), then a time if any. -/
def parseDate (l : List UInt8) (p : Moment) : Option Moment :=
  let (neg, l) := match l with
    | 45 :: rest => (true, rest)
    | _ => (false, l)
  match readFields dateFields l with
  | [y, m, d] =>
    let l := (l.drop 10).dropWhile fun b => isSpaceUnit b || b == 84
    let timed := match parseTime l p with
      | some q => some q
      | none => if l.isEmpty then some { p with hasTime := false } else none
    timed.map fun q =>
      let q := { q with hasJd := false, hasDate := true, year := if neg then -Int.ofNat y else Int.ofNat y,
                        month := Int.ofNat m, day := Int.ofNat d }
      if q.hasZone then q.computeJd else q
  | _ => none

/-- Reads the text of a moment: a date, a time, `now`, a number, or
`subsec` (now, written with milliseconds). -/
def parseMoment (now : Int) (l : List UInt8) (p : Moment) : Option Moment :=
  match parseDate l p with
  | some q => some q
  | none =>
    match parseTime l p with
    | some q => some q
    | none =>
      if sameWord l "now" then some (p.atNow now)
      else
        let (kind, bits) := readRealUnits l 1
        if kind > 0 then some (p.setRaw (Float.ofBits bits))
        else if sameWord l "subsec" || sameWord l "subsecond" then some { p.atNow now with subsec := true }
        else none

/-! ## Modifiers -/

/-- The days from 1970-01-01 to a date, and back. -/
def daysFromCivil (y m d : Int) : Int :=
  let y := if m ≤ 2 then y - 1 else y
  let era := (if y ≥ 0 then y else y - 399) / 400
  let yoe := y - era * 400
  let mp := (m + 9) % 12
  let doy := (153 * mp + 2) / 5 + d - 1
  let doe := yoe * 365 + yoe / 4 - yoe / 100 + doy
  era * 146097 + doe - 719468

def civilFromDays (z : Int) : Int × Int × Int :=
  let z := z + 719468
  let era := (if z ≥ 0 then z else z - 146096) / 146097
  let doe := z - era * 146097
  let yoe := (doe - doe / 1460 + doe / 36524 - doe / 146096) / 365
  let doy := doe - (365 * yoe + yoe / 4 - yoe / 100)
  let mp := (5 * doy + 2) / 153
  let d := doy - (153 * mp + 2) / 5 + 1
  let m := if mp < 10 then mp + 3 else mp - 9
  (if m ≤ 2 then yoe + era * 400 + 1 else yoe + era * 400, m, d)

/-- The moment in local time, which is universal time: the date and time of
the count, a year outside 1970 to 2037 moved into it by a multiple of four
years and back. -/
def toLocal (p : Moment) : Moment :=
  let p := p.computeJd
  let (t, shift) :=
    if p.jd < 210866760000000 || p.jd > 213014145600000 then
      let x := p.computeAll
      let shift := (2000 + x.year.tmod 4) - x.year
      let x := { x with year := x.year + shift, hasJd := false }.computeJd
      (x.jd.tdiv 1000 - 210866760000, shift)
    else (p.jd.tdiv 1000 - 210866760000, 0)
  let (y, m, d) := civilFromDays (t / 86400)
  let secs := t % 86400
  { p with year := y - shift, month := m, day := d, hour := secs / 3600, minute := (secs / 60) % 60,
           seconds := toFloat (secs % 60) + toFloat (p.jd.tmod 1000) * 0.001,
           hasDate := true, hasTime := true, hasJd := false, raw := false, hasZone := false, failed := false }

/-- A unit a number of which a modifier adds: its name, the bound on the
number, and its length in seconds. -/
structure TimeUnit where
  name : String
  limit : Float
  seconds : Float

/-- The units, in the order they are tried. -/
def units : List TimeUnit :=
  [⟨"second", Float.ofNat 464269992787968, 1⟩, ⟨"minute", Float.ofNat 7737900007424, 60⟩,
   ⟨"hour", Float.ofNat 128969998336, 3600⟩, ⟨"day", 5373485, 86400⟩,
   ⟨"month", 176546, 2592000⟩, ⟨"year", 14713, 31536000⟩]

/-- Where the number of a numeric modifier ends: at a `:`, a blank, the
end, or a `-` after a year of four or five digits. -/
def numberEnd (z : List UInt8) : Nat → Nat → Nat
  | 0, n => n
  | fuel + 1, n =>
    match z[n]? with
    | none => n
    | some c =>
      if c == 58 || isSpaceUnit c then n
      else if c == 45 && ((n == 5 && (readFields [⟨4, 0, 14712, none⟩] (z.drop 1)).length == 1) ||
          (n == 6 && (readFields [⟨5, 0, 14712, none⟩] (z.drop 1)).length == 1)) then n
      else numberEnd z fuel (n + 1)

/-- Brings a month count back into 1 to 12, moving the years. -/
def normalizeMonth (p : Moment) : Moment :=
  let x := if p.month > 0 then (p.month - 1).tdiv 12 else (p.month - 12).tdiv 12
  { p with year := p.year + x, month := p.month - x * 12 }

/-- Adds `HH:MM[:SS.FFF]` read from `z2` (after a sign), subtracting it
under `-`. -/
def shiftByClock (z2 : List UInt8) (negative : Bool) (p : Moment) : Option Moment :=
  let t := match z2 with
    | c :: rest => if isDigitUnit c then z2 else rest
    | [] => []
  (parseTime t {}).map fun tx =>
    let tjd := tx.computeJd.jd - 43200000
    let tjd := tjd - tjd.tdiv dayMs * dayMs
    let tjd := if negative then -tjd else tjd
    let p := p.computeJd.clearViews
    { p with jd := p.jd + tjd }

/-- Adds `r` of the unit named by the text `z` (a final `s` allowed). -/
def shiftByUnits (z : List UInt8) (r : Float) (p : Moment) : Option Moment :=
  let z := dropSpaces z
  let n := z.length
  if n > 10 || n < 3 then none
  else
    let n := if (z.getD (n - 1) 0 |> Text.lowerByte) == 115 then n - 1 else n
    let p := p.computeJd
    let rounder : Float := if r < 0 then -0.5 else 0.5
    match units.find? fun u => u.name.length == n && startsWord z u.name && r > -u.limit && r < u.limit with
    | none => none
    | some u =>
      let (p, r) :=
        if u.name == "month" then
          let q := normalizeMonth { p.computeAll with month := p.computeAll.month + truncate r }
          ({ q with hasJd := false }, r - toFloat (truncate r))
        else if u.name == "year" then
          let q := p.computeAll
          ({ q with year := q.year + truncate r, hasJd := false }, r - toFloat (truncate r))
        else (p, r)
      let p := p.computeJd
      some { p with jd := p.jd + truncate (r * 1000.0 * u.seconds + rounder) }.clearViews

/-- A modifier of the form `+NNN units`, `+HH:MM:SS` or `+YYYY-MM-DD`. -/
def numericModifier (z : List UInt8) (p : Moment) : Option Moment := do
  let z0 := z.headD 0
  let n := numberEnd z z.length 1
  let (kind, bits) := readRealUnits (z.take n) 1
  if kind ≤ 0 then none
  let r := Float.ofBits bits
  let negative := z0 == 45
  if z[n]? == some 45 then
    if z0 != 43 && z0 != 45 then none
    let (ymd, z) := if n == 5 then (readFields (shiftFields 4) (z.drop 1), z)
      else (readFields (shiftFields 5) (z.drop 1), z.drop 1)
    let [y, m, d] := ymd | none
    if m ≥ 12 || d ≥ 31 then none
    let q := p.computeAll
    let q := if negative then { q with year := q.year - y, month := q.month - m }
      else { q with year := q.year + y, month := q.month + m }
    let q := (normalizeMonth { q with hasJd := false }).computeJd
    let q := { q with hasTime := false, hasDate := false,
                      jd := q.jd + (if negative then -Int.ofNat d else Int.ofNat d) * dayMs }
    match z[11]? with
    | none => some q
    | some c =>
      if isSpaceUnit c && (readFields clockFields (z.drop 12)).length == 2 then
        shiftByClock (z.drop 12) negative q
      else none
  else if z[n]? == some 58 then shiftByClock z negative p
  else shiftByUnits (z.drop n) r p

/-- Applies the modifier `z`, the `idx`-th argument. -/
def applyModifier (z : List UInt8) (idx : Nat) (p : Moment) : Option Moment :=
  match (z.headD 0 |> Text.lowerByte) with
  | 97 =>
    if !sameWord z "auto" || idx > 1 then none
    else if !p.raw || p.hasJd then some { p with raw := false }
    else if p.seconds ≥ -210866760000 && p.seconds ≤ 253402300799 then
      let r := p.seconds * 1000.0 + 210866760000000.0
      some { p.clearViews with jd := truncate (r + 0.5), hasJd := true, raw := false }
    else none
  | 106 =>
    if !sameWord z "julianday" || idx > 1 then none
    else if p.hasJd && p.raw then some { p with raw := false }
    else none
  | 108 => if sameWord z "localtime" then some (toLocal p) else none
  | 117 =>
    if sameWord z "unixepoch" && p.raw then
      if idx > 1 then none
      else
        let r := p.seconds * 1000.0 + 210866760000000.0
        if r ≥ 0 && r < 464269060800000.0 then
          some { p.clearViews with jd := truncate (r + 0.5), hasJd := true, raw := false }
        else none
    else if sameWord z "utc" then
      if p.zoneGiven then some p
      else some { jd := p.computeJd.jd, hasJd := true, zoneGiven := true }
    else none
  | 119 =>
    if !startsWord z "weekday " then none
    else
      let (kind, bits) := readRealUnits (z.drop 8) 1
      let r := Float.ofBits bits
      if kind > 0 && r ≥ 0 && r < 7 && toFloat (truncate r) == r then
        let n := truncate r
        let q := { p.computeAll with hasZone := false, hasJd := false }.computeJd
        let w := ((q.jd + 129600000).tdiv dayMs).tmod 7
        let w := if w > n then w - 7 else w
        some { q with jd := q.jd + (n - w) * dayMs }.clearViews
      else none
  | 115 =>
    if !startsWord z "start of " then
      if sameWord z "subsec" || sameWord z "subsecond" then some { p with subsec := true } else none
    else if !p.hasJd && !p.hasDate && !p.hasTime then none
    else
      let q := { p.computeDate with hasTime := true, hour := 0, minute := 0, seconds := 0, raw := false,
                                    hasZone := false, hasJd := false }
      let unit := z.drop 9
      if sameWord unit "month" then some { q with day := 1 }
      else if sameWord unit "year" then some { q with month := 1, day := 1 }
      else if sameWord unit "day" then some q
      else none
  | c => if c == 43 || c == 45 || isDigitUnit c then numericModifier z p else none

/-! ## The functions -/

/-- The text of an argument, up to its first NUL; none for null. -/
def argText (v : Value) : Option (List UInt8) := (v.render).map fun b => Text.untilNul b.toList

/-- The moment the arguments give: the first read as a moment (a number as
a julian day), the rest applied as modifiers; none arguments is now.  None
when any cannot be read, or the moment is outside the calendar. -/
def momentOf (now : Int) (args : List Value) : Option Moment := do
  match args with
  | [] => some (Moment.atNow {} now)
  | first :: mods =>
    let p ← match first with
      | .int i => some (Moment.setRaw {} (toFloat i))
      | .real b => some (Moment.setRaw {} (Float.ofBits b))
      | v => do parseMoment now (← argText v) {}
    let p ← (mods.zipIdx 1).foldlM (fun p (v, i) => do applyModifier (← argText v) i p) p
    let p := p.computeJd
    if p.failed || !validJd p.jd then none
    else if args.length == 1 && p.hasDate && p.day > 28 then some { p with hasDate := false }
    else some p

/-- An integer in decimal, padded with zeros to `width` characters, a minus
sign counting among them. -/
def padded (width : Nat) (v : Int) : String :=
  let digits := toString v.natAbs
  let sign := if v < 0 then "-" else ""
  sign ++ String.ofList (List.replicate (width - sign.length - digits.length) '0') ++ digits

/-- The last `k` decimal digits of a count, with zeros before. -/
def lastDigits (k : Nat) (v : Int) : String :=
  let s := toString (v.natAbs % Nat.pow 10 k)
  String.ofList (List.replicate (k - s.length) '0') ++ s

/-- A double as `%06.3f` writes it. -/
def secondsText (s : Float) : String := formatReal s.toBits .fixed (some 3) { zeroPad := true } 6

/-- The date of a moment: `YYYY-MM-DD`, with a minus sign before a year
below zero. -/
def dateText (p : Moment) : String :=
  (if p.year < 0 then "-" else "") ++ lastDigits 4 p.year ++ "-" ++ lastDigits 2 p.month ++ "-" ++
    lastDigits 2 p.day

/-- The time of a moment: `HH:MM:SS`, or `HH:MM:SS.SSS` under `subsec`. -/
def timeText (p : Moment) : String :=
  let secs := if p.subsec then
      let s := truncate (1000.0 * p.seconds + 0.5)
      lastDigits 2 (s.tdiv 1000) ++ "." ++ lastDigits 3 s
    else lastDigits 2 (truncate p.seconds)
  lastDigits 2 p.hour ++ ":" ++ lastDigits 2 p.minute ++ ":" ++ secs

/-- `strftime`'s text of a moment, or none for an unknown conversion. -/
def strftimeText (fmt : List UInt8) (p : Moment) : Option String :=
  let dayOfYear : Int :=
    let y := { p with hasJd := false, month := 1, day := 1 }.computeJd
    (p.jd - y.jd + 43200000).tdiv dayMs
  let conv (c : UInt8) : Option String :=
    match c with
    | 100 => some (padded 2 p.day)
    | 102 => some (secondsText (if p.seconds > 59.999 then 59.999 else p.seconds))
    | 72 => some (padded 2 p.hour)
    | 87 =>
      let wd := ((p.jd + 43200000).tdiv dayMs).tmod 7
      some (padded 2 ((dayOfYear + 7 - wd).tdiv 7))
    | 106 => some (padded 3 (dayOfYear + 1))
    | 74 => some (formatReal (toFloat p.jd / 86400000.0).toBits .general (some 16) {} 0)
    | 109 => some (padded 2 p.month)
    | 77 => some (padded 2 p.minute)
    | 115 =>
      if p.subsec then
        some (formatReal (toFloat (p.jd - unixEpochJd) / 1000.0).toBits .fixed (some 3) {} 0)
      else some (toString (p.jd.tdiv 1000 - 210866760000))
    | 83 => some (padded 2 (truncate p.seconds))
    | 119 => some (toString (((p.jd + 129600000).tdiv dayMs).tmod 7))
    | 89 => some (padded 4 p.year)
    | 37 => some "%"
    | _ => none
  let rec go : List UInt8 → List UInt8 → Option String
    | [], acc => some (String.fromUTF8! (ByteArray.mk acc.reverse.toArray))
    | 37 :: c :: rest, acc => (conv c).bind fun s => go rest (s.toUTF8.toList.reverse ++ acc)
    | [37], _ => none
    | b :: rest, acc => go rest (b :: acc)
  go fmt []

/-- `timediff(a, b)`: what must be added to `b` to reach `a`, written
`+YYYY-MM-DD HH:MM:SS.SSS` (with `-` when `a` comes first). -/
def timediffText (now : Int) (a b : Value) : Option String := do
  let d1 ← momentOf now [a]
  let d2 ← momentOf now [b]
  let d1 := d1.computeAll
  let d2 := d2.computeAll
  let refresh (q : Moment) : Moment := { q with hasJd := false }.computeJd
  let (sign, y, m, d1) :=
    if d1.jd ≥ d2.jd then
      let y := d1.year - d2.year
      let d2 := if y != 0 then refresh { d2 with year := d1.year } else d2
      let m := d1.month - d2.month
      let (y, m) := if m < 0 then (y - 1, m + 12) else (y, m)
      let d2 := if m != 0 then refresh { d2 with month := d1.month } else d2
      let (y, m, d2) := (List.range 24).foldl (fun ((y, m, d2) : Int × Int × Moment) _ =>
        if d1.jd < d2.jd then
          let (y, m) := if m - 1 < 0 then (y - 1, 11) else (y, m - 1)
          let d2 := if d2.month - 1 < 1 then { d2 with month := 12, year := d2.year - 1 }
            else { d2 with month := d2.month - 1 }
          (y, m, refresh d2)
        else (y, m, d2)) (y, m, d2)
      ('+', y, m, { d1 with jd := d1.jd - d2.jd + 148699540800000 })
    else
      let y := d2.year - d1.year
      let d2 := if y != 0 then refresh { d2 with year := d1.year } else d2
      let m := d2.month - d1.month
      let (y, m) := if m < 0 then (y - 1, m + 12) else (y, m)
      let d2 := if m != 0 then refresh { d2 with month := d1.month } else d2
      let (y, m, d2) := (List.range 24).foldl (fun ((y, m, d2) : Int × Int × Moment) _ =>
        if d1.jd > d2.jd then
          let (y, m) := if m - 1 < 0 then (y - 1, 11) else (y, m - 1)
          let d2 := if d2.month + 1 > 12 then { d2 with month := 1, year := d2.year + 1 }
            else { d2 with month := d2.month + 1 }
          (y, m, refresh d2)
        else (y, m, d2)) (y, m, d2)
      ('-', y, m, { d1 with jd := d2.jd - d1.jd + 148699540800000 })
  let r := { d1.clearViews with hasJd := true }.computeAll
  pure (String.singleton sign ++ padded 4 y ++ "-" ++ padded 2 m ++ "-" ++ padded 2 (r.day - 1) ++ " " ++
    padded 2 r.hour ++ ":" ++ padded 2 r.minute ++ ":" ++ secondsText r.seconds)

/-- The value of a date and time function of the given (lower-case) name at
the moment `now` (milliseconds from 1970); none for another name. -/
def call (now : Int) (name : String) (args : List Value) : Option Value :=
  let text (s : Option String) : Value := (s.map Value.ofString).getD .null
  match name with
  | "date" | "current_date" => some (text ((momentOf now args).map fun p => dateText p.computeDate))
  | "time" | "current_time" => some (text ((momentOf now args).map fun p => timeText p.computeTime))
  | "datetime" | "current_timestamp" =>
    some (text ((momentOf now args).map fun p =>
      let p := p.computeAll
      dateText p ++ " " ++ timeText p))
  | "julianday" =>
    some (((momentOf now args).map fun p => Value.real (toFloat p.jd / 86400000.0).toBits).getD .null)
  | "unixepoch" =>
    some (((momentOf now args).map fun p =>
      if p.subsec then Value.real (toFloat (p.jd - unixEpochJd) / 1000.0).toBits
      else Value.int (p.jd.tdiv 1000 - 210866760000)).getD .null)
  | "strftime" =>
    match args with
    | [] => some .null
    | f :: rest =>
      some (text (do
        let fmt ← argText f
        let p ← momentOf now rest
        strftimeText fmt p.computeAll))
  | "timediff" =>
    match args with
    | [a, b] => some (text (timediffText now a b))
    | _ => some .null
  | _ => none

end Date
end Sql
end PowChain
