import PowChain.Sql.Json.Element

/-!
# Reading JSON text

`readText` reads JSON text into an element.  Besides standard JSON it takes
JSON5: comments, more kinds of blank, strings in single quotes and with more
escapes, labels without quotes, a comma before a closing bracket, numbers
in hexadecimal, with a leading `+`, or with no digit on one side of the
point, and `Infinity` and `NaN` (read as `9e999` and null).  It tells
whether the text used any of these, for a caller that takes only standard
JSON.

A failure gives the place of the byte where the reading stopped.  The text
ends at its first NUL; arrays and objects nest at most 1000 deep.

The reader goes through the text once, left to right.  At each place it
either reads a value, or finds one of the bytes `}` `]` `,` `:` (noting its
place) or the end; the readers of arrays and objects decide from that what
comes next.
-/

namespace PowChain
namespace Sql
namespace Json

/-- The byte at a place of a text, zero past its end as at a final NUL. -/
def byteAt (z : ByteArray) (i : Nat) : UInt8 := z.data.getD i 0

/-- Whether a byte is a blank of standard JSON: tab, newline, carriage
return or space. -/
def isJsonBlank (c : UInt8) : Bool := c == 9 || c == 10 || c == 13 || c == 32

/-- Whether a byte is an ASCII letter or digit. -/
def isAlnumUnit (c : UInt8) : Bool :=
  isDigitUnit c || (65 ≤ c && c ≤ 90) || (97 ≤ c && c ≤ 122)

/-- Whether a byte may start a label without quotes: a letter, `$`, `_` or
a byte of a character past ASCII. -/
def isLabelStart (c : UInt8) : Bool :=
  (65 ≤ c && c ≤ 90) || (97 ≤ c && c ≤ 122) || c == 36 || c == 95 || c ≥ 0x80

/-- Whether a byte may go on a label without quotes: also a digit. -/
def isLabelPart (c : UInt8) : Bool := isLabelStart c || isDigitUnit c

/-- The first place from `i` on whose byte does not satisfy `p`. -/
def spanFrom (p : UInt8 → Bool) (z : ByteArray) : Nat → Nat → Nat
  | 0, i => i
  | fuel + 1, i => if p (byteAt z i) then spanFrom p z fuel (i + 1) else i

/-- The first place past the standard blanks from `i` on. -/
def blanksEnd (z : ByteArray) (i : Nat) : Nat := spanFrom isJsonBlank z (z.size + 1) i

/-- Whether `n` hexadecimal digits stand at `i`. -/
def hexRun (z : ByteArray) (i n : Nat) : Bool := (List.range n).all fun k => isHexUnit (byteAt z (i + k))

/-- Whether a word stands at `i`, without regard to ASCII case. -/
def wordFolded (z : ByteArray) (i : Nat) (w : String) : Bool :=
  let lower (b : UInt8) : UInt8 := if 65 ≤ b && b ≤ 90 then b + 32 else b
  (w.toUTF8.toList.zipIdx).all fun (b, k) => lower (byteAt z (i + k)) == lower b

/-! ## Blanks and comments -/

/-- Where a block comment ends, searching from `j` for its `*/`: the place
after it; none when the text ends first. -/
def commentEnd (z : ByteArray) : Nat → Nat → Option Nat
  | 0, _ => none
  | fuel + 1, j =>
    if byteAt z j == 47 && byteAt z (j - 1) == 42 then some (j + 1)
    else if byteAt z j == 0 then none
    else commentEnd z fuel (j + 1)

/-- Where a line comment ends, searching from `j`: at a line break or the
end of the text, or on the last byte of a line or paragraph separator. -/
def lineCommentEnd (z : ByteArray) : Nat → Nat → Nat
  | 0, j => j
  | fuel + 1, j =>
    let c := byteAt z j
    if c == 0 || c == 10 || c == 13 then j
    else if c == 0xe2 && byteAt z (j + 1) == 0x80 && (byteAt z (j + 2) == 0xa8 || byteAt z (j + 2) == 0xa9) then
      j + 2
    else lineCommentEnd z fuel (j + 1)

/-- The place after the blank, if any, that starts at `i`: an ASCII blank,
a comment, or a space, separator or byte-order mark past ASCII. -/
def relaxedBlankAt (z : ByteArray) (i : Nat) : Option Nat :=
  let c := byteAt z i
  let c1 := byteAt z (i + 1)
  let c2 := byteAt z (i + 2)
  if c == 9 || c == 10 || c == 11 || c == 12 || c == 13 || c == 32 then some (i + 1)
  else if c == 47 then
    if c1 == 42 && c2 != 0 then commentEnd z (z.size + 1) (i + 3)
    else if c1 == 47 then
      let j := lineCommentEnd z (z.size + 1) (i + 2)
      some (if byteAt z j != 0 then j + 1 else j)
    else none
  else if c == 0xc2 then if c1 == 0xa0 then some (i + 2) else none
  else if c == 0xe1 then if c1 == 0x9a && c2 == 0x80 then some (i + 3) else none
  else if c == 0xe2 then
    if c1 == 0x80 then
      if c2 ≥ 0x80 && (c2 ≤ 0x8a || c2 == 0xa8 || c2 == 0xa9 || c2 == 0xaf) then some (i + 3) else none
    else if c1 == 0x81 && c2 == 0x9f then some (i + 3) else none
  else if c == 0xe3 then if c1 == 0x80 && c2 == 0x80 then some (i + 3) else none
  else if c == 0xef then if c1 == 0xbb && c2 == 0xbf then some (i + 3) else none
  else none

/-- The first place from `i` on past the blanks and comments there. -/
def relaxedBlanksEnd (z : ByteArray) : Nat → Nat → Nat
  | 0, i => i
  | fuel + 1, i =>
    match relaxedBlankAt z i with
    | some j => relaxedBlanksEnd z fuel j
    | none => i

/-- `relaxedBlanksEnd` with fuel enough for the whole text. -/
def skipRelaxed (z : ByteArray) (i : Nat) : Nat := relaxedBlanksEnd z (z.size + 1) i

/-! ## Values -/

/-- What the reader finds at a place. -/
structure Scan where
  /-- Whether the text used anything that standard JSON lacks. -/
  nonstandard : Bool := false
  /-- The place of the last error, or of the last `}` `]` `,` `:` found. -/
  errorAt : Nat := 0
  /-- How deep in arrays and objects the reader is. -/
  depth : Nat := 0

/-- What stands at a place of the text. -/
inductive Found where
  | value (e : Element) (next : Nat)
  | closeBrace
  | closeBracket
  | comma
  | colon
  /-- The end of the text. -/
  | finished
  | failed

/-- The most arrays and objects may nest. -/
def maxDepth : Nat := 1000

/-- A number from `i` to `j` of kind `t`: bit 1 for a real, bit 0 for
JSON5 spelling.  A leading `+` is left out. -/
def numberEnd (z : ByteArray) (i t j : Nat) (st : Scan) : Found × Scan :=
  let start := if byteAt z i == 43 then i + 1 else i
  let text := (z.extract start j).toList
  let relaxed := t % 2 == 1
  (.value (if t / 2 % 2 == 1 then .real text relaxed else .integer text relaxed) j, st)

/-- Whether the byte before `j` is a point with a digit before it, at or
after `i`. -/
def pointAfterDigit (z : ByteArray) (i j : Nat) : Bool :=
  byteAt z (j - 1) == 46 && j ≥ i + 2 && isDigitUnit (byteAt z (j - 2))

/-- The digits, point and exponent of a number from `j` on: where they end,
with the kind bits and whether JSON5 was used, or the place of an error. -/
def numberBody (z : ByteArray) (i : Nat) : Nat → Nat → Nat → Bool → Bool → Except Nat (Nat × Nat × Bool)
  | 0, j, t, _, ns => .ok (j, t, ns)
  | fuel + 1, j, t, seenE, ns =>
    let c := byteAt z j
    if isDigitUnit c then numberBody z i fuel (j + 1) t seenE ns
    else if c == 46 then
      if t / 2 % 2 == 1 then .error j else numberBody z i fuel (j + 1) (t ||| 2) seenE ns
    else if c == 101 || c == 69 then
      let prevOk := byteAt z (j - 1) ≥ 48 || pointAfterDigit z i j
      if !prevOk || seenE then .error j
      else
        let (t, ns) := if byteAt z (j - 1) < 48 then (t ||| 3, true) else (t ||| 2, ns)
        let signed := byteAt z (j + 1) == 43 || byteAt z (j + 1) == 45
        let j := if signed then j + 1 else j
        if isDigitUnit (byteAt z (j + 1)) then numberBody z i fuel (j + 1) t true ns else .error j
    else .ok (j, t, ns)

/-- Reads a number from the byte after `i` on, `t` its kind bits so far. -/
def numberFrom (z : ByteArray) (i t : Nat) (st : Scan) : Found × Scan :=
  match numberBody z i (z.size + 1) (i + 1) t false st.nonstandard with
  | .error j => (.failed, { st with errorAt := j })
  | .ok (j, t, ns) =>
    if byteAt z (j - 1) < 48 then
      if pointAfterDigit z i j then numberEnd z i (t ||| 1) j { st with nonstandard := true }
      else (.failed, { st with errorAt := j })
    else numberEnd z i t j { st with nonstandard := ns }

/-- Reads a number that starts at `i` with a sign or a digit. -/
def numberAt (z : ByteArray) (i : Nat) (st : Scan) : Found × Scan :=
  let c := byteAt z i
  let c1 := byteAt z (i + 1)
  let c2 := byteAt z (i + 2)
  if c == 48 then
    if (c1 == 120 || c1 == 88) && isHexUnit c2 then
      numberEnd z i 1 (spanFrom isHexUnit z (z.size + 1) (i + 3)) { st with nonstandard := true }
    else if isDigitUnit c1 then (.failed, { st with errorAt := i + 1 })
    else numberFrom z i 0 st
  else if c == 45 || c == 43 then
    if !isDigitUnit c1 then
      if (c1 == 73 || c1 == 105) && wordFolded z (i + 1) "inf" then
        let text := if c == 45 then "-9e999" else "9e999"
        let next := i + (if wordFolded z (i + 4) "inity" then 9 else 4)
        (.value (.real text.toUTF8.toList false) next, { st with nonstandard := true })
      else if c1 == 46 then numberFrom z i 1 { st with nonstandard := true }
      else (.failed, { st with errorAt := i })
    else if c1 == 48 then
      if isDigitUnit c2 then (.failed, { st with errorAt := i + 1 })
      else if (c2 == 120 || c2 == 88) && isHexUnit (byteAt z (i + 3)) then
        numberEnd z i 1 (spanFrom isHexUnit z (z.size + 1) (i + 4)) { st with nonstandard := true }
      else numberFrom z i 0 st
    else numberFrom z i 0 st
  else numberFrom z i 0 st

/-- The bytes of a string from `j` on, up to its closing quote `delim`:
where that stands, with the spelling and whether JSON5 was used, or the
place of an error. -/
def stringBody (z : ByteArray) (delim : UInt8) : Nat → Nat → Spelling → Bool → Except Nat (Nat × Spelling × Bool)
  | 0, j, _, _ => .error j
  | fuel + 1, j, sp, ns =>
    let c := byteAt z j
    if c == delim then .ok (j, sp, ns)
    else if c == 92 then
      let j := j + 1
      let d := byteAt z j
      if d == 34 || d == 92 || d == 47 || d == 98 || d == 102 || d == 110 || d == 114 || d == 116 ||
          (d == 117 && hexRun z (j + 1) 4) then
        stringBody z delim fuel (j + 1) (if sp == .plain then .escaped else sp) ns
      else if d == 39 || d == 48 || d == 118 || d == 10 ||
          (d == 0xe2 && byteAt z (j + 1) == 0x80 && (byteAt z (j + 2) == 0xa8 || byteAt z (j + 2) == 0xa9)) ||
          (d == 120 && hexRun z (j + 1) 2) then
        stringBody z delim fuel (j + 1) .relaxed true
      else if d == 13 then
        stringBody z delim fuel ((if byteAt z (j + 1) == 10 then j + 1 else j) + 1) .relaxed true
      else .error j
    else if c ≤ 0x1f then
      if c == 0 then .error j else stringBody z delim fuel (j + 1) .relaxed true
    else if c == 34 then stringBody z delim fuel (j + 1) .relaxed ns
    else stringBody z delim fuel (j + 1) sp ns

/-- Reads a string whose opening quote stands at `i`. -/
def stringAt (z : ByteArray) (i : Nat) (st : Scan) : Found × Scan :=
  let delim := byteAt z i
  let sp := if delim == 39 then Spelling.relaxed else .plain
  match stringBody z delim (z.size + 1) (i + 1) sp st.nonstandard with
  | .error j => (.failed, { st with errorAt := j })
  | .ok (j, sp, ns) => (.value (.string ⟨sp, (z.extract (i + 1) j).toList⟩) (j + 1), { st with nonstandard := ns })

/-- Reads the word `w` for the element `e` at `i`; no letter or digit may
follow it. -/
def wordAt (z : ByteArray) (i : Nat) (w : String) (e : Element) (st : Scan) : Found × Scan :=
  let n := w.utf8ByteSize
  if (z.extract i (i + n)).toList == w.toUTF8.toList && !isAlnumUnit (byteAt z (i + n)) then (.value e (i + n), st)
  else (.failed, { st with errorAt := i })

/-- The names of numbers that are not finite, in any case: an infinity,
read as `9e999`, or not a number, read as null. -/
def specialNumbers : List (String × Element) :=
  [("inf", .real "9e999".toUTF8.toList false), ("infinity", .real "9e999".toUTF8.toList false),
   ("nan", .null), ("qnan", .null), ("snan", .null)]

/-- Reads the name of a number that is not finite at `i`. -/
def specialAt (z : ByteArray) (i : Nat) (st : Scan) : Found × Scan :=
  match specialNumbers.find? fun (w, _) => wordFolded z i w && !isAlnumUnit (byteAt z (i + w.utf8ByteSize)) with
  | some (w, e) => (.value e (i + w.utf8ByteSize), { st with nonstandard := true })
  | none => (.failed, { st with errorAt := i })

/-- Where a label without quotes that started before `k` ends, and its
spelling: it goes on over letters, digits, `$`, `_`, bytes past ASCII that
start no blank, and escapes `\uXXXX`. -/
def labelEnd (z : ByteArray) : Nat → Nat → Spelling → Nat × Spelling
  | 0, k, sp => (k, sp)
  | fuel + 1, k, sp =>
    let c := byteAt z k
    if isLabelPart c && relaxedBlankAt z k == none then labelEnd z fuel (k + 1) sp
    else if c == 92 && byteAt z (k + 1) == 117 && hexRun z (k + 2) 4 then labelEnd z fuel (k + 1) .relaxed
    else (k, sp)

/-- Whether a reading found something other than a failure. -/
def Found.isFailure : Found → Bool
  | .failed => true
  | _ => false

/-- A failure at `j`, unless a failure was already found, whose place
stands. -/
def failAt (x : Found) (j : Nat) (st : Scan) : Found × Scan :=
  (.failed, if x.isFailure then st else { st with errorAt := j })

mutual

/-- Reads what stands at `i`: a value, one of `}` `]` `,` `:`, or the end,
passing over blanks first. -/
def valueAt (z : ByteArray) : Nat → Nat → Scan → Found × Scan
  | 0, _, st => (.failed, st)
  | fuel + 1, i, st =>
    let c := byteAt z i
    if c == 123 then
      let st := { st with depth := st.depth + 1 }
      if st.depth > maxDepth then (.failed, { st with errorAt := i }) else objectFrom z fuel (i + 1) [] st
    else if c == 91 then
      let st := { st with depth := st.depth + 1 }
      if st.depth > maxDepth then (.failed, { st with errorAt := i }) else arrayFrom z fuel (i + 1) [] st
    else if c == 34 then stringAt z i st
    else if c == 39 then stringAt z i { st with nonstandard := true }
    else if c == 116 then wordAt z i "true" (.bool true) st
    else if c == 102 then wordAt z i "false" (.bool false) st
    else if c == 43 then numberAt z i { st with nonstandard := true }
    else if c == 46 then
      if isDigitUnit (byteAt z (i + 1)) then numberFrom z i 3 { st with nonstandard := true }
      else (.failed, { st with errorAt := i })
    else if c == 45 || isDigitUnit c then numberAt z i st
    else if c == 125 then (.closeBrace, { st with errorAt := i })
    else if c == 93 then (.closeBracket, { st with errorAt := i })
    else if c == 44 then (.comma, { st with errorAt := i })
    else if c == 58 then (.colon, { st with errorAt := i })
    else if c == 0 then (.finished, st)
    else if isJsonBlank c then valueAt z fuel (blanksEnd z (i + 1)) st
    else if c == 11 || c == 12 || c == 47 || c == 0xc2 || c == 0xe1 || c == 0xe2 || c == 0xe3 || c == 0xef then
      let j := skipRelaxed z i
      if j > i then valueAt z fuel j { st with nonstandard := true } else (.failed, { st with errorAt := i })
    else if c == 110 && (z.extract i (i + 4)).toList == "null".toUTF8.toList && !isAlnumUnit (byteAt z (i + 4)) then
      (.value .null (i + 4), st)
    else specialAt z i st

/-- Reads the items of an array from `j` on, `acc` those read so far in
reverse, up to its `]`. -/
def arrayFrom (z : ByteArray) : Nat → Nat → List Element → Scan → Found × Scan
  | 0, _, _, st => (.failed, st)
  | fuel + 1, j, acc, st =>
    let close (acc : List Element) (place : Nat) (st : Scan) : Found × Scan :=
      (.value (.array acc.reverse) (place + 1), { st with depth := st.depth - 1 })
    match valueAt z fuel j st with
    | (.value e next, st) =>
      let acc := e :: acc
      let c := byteAt z next
      if c == 44 then arrayFrom z fuel (next + 1) acc st
      else if c == 93 then close acc next st
      else
        let k := if isJsonBlank c then blanksEnd z (next + 1) else next
        if isJsonBlank c && byteAt z k == 44 then arrayFrom z fuel (k + 1) acc st
        else if isJsonBlank c && byteAt z k == 93 then close acc k st
        else
          match valueAt z fuel k st with
          | (.comma, st) => arrayFrom z fuel (st.errorAt + 1) acc st
          | (.closeBracket, st) => close acc st.errorAt st
          | (_, st) => (.failed, { st with errorAt := k })
    | (.closeBracket, st) =>
      close acc st.errorAt (if acc.isEmpty then st else { st with nonstandard := true })
    | (x, st) => failAt x j st

/-- Reads the members of an object from `j` on, `acc` those read so far in
reverse, up to its `}`. -/
def objectFrom (z : ByteArray) : Nat → Nat → List (Chars × Element) → Scan → Found × Scan
  | 0, _, _, st => (.failed, st)
  | fuel + 1, j, acc, st =>
    let close (acc : List (Chars × Element)) (place : Nat) (st : Scan) : Found × Scan :=
      (.value (.object acc.reverse) (place + 1), { st with depth := st.depth - 1 })
    -- the label: a string, or a name without quotes
    let label : (Option (Chars × Nat) × Scan) ⊕ (Found × Scan) :=
      match valueAt z fuel j st with
      | (.value (.string c) next, st) => .inl (some (c, next), st)
      | (.value _ _, st) => .inr (.failed, { st with errorAt := j })
      | (.closeBrace, st) => .inl (none, st)
      | (x, st) =>
        let j := skipRelaxed z j
        let c := byteAt z j
        let escapedStart := c == 92 && byteAt z (j + 1) == 117 && hexRun z (j + 2) 4
        if isLabelStart c || escapedStart then
          let (k, sp) := labelEnd z (z.size + 1) (j + 1) (if escapedStart then .relaxed else .plain)
          .inl (some (⟨sp, (z.extract j k).toList⟩, k), { st with nonstandard := true })
        else .inr (failAt x j st)
    match label with
    | .inr r => r
    | .inl (none, st) => close acc st.errorAt (if acc.isEmpty then st else { st with nonstandard := true })
    | .inl (some (name, next), st) =>
      -- the colon
      let colon : (Nat × Scan) ⊕ (Found × Scan) :=
        if byteAt z next == 58 then .inl (next + 1, st)
        else
          let k := if isJsonBlank (byteAt z next) then blanksEnd z (next + 1) else next
          if byteAt z k == 58 then .inl (k + 1, st)
          else
            match valueAt z fuel k st with
            | (.colon, st) => .inl (st.errorAt + 1, st)
            | (x, st) => .inr (failAt x k st)
      match colon with
      | .inr r => r
      | .inl (jv, st) =>
        match valueAt z fuel jv st with
        | (.value v next, st) =>
          let acc := (name, v) :: acc
          let c := byteAt z next
          if c == 44 then objectFrom z fuel (next + 1) acc st
          else if c == 125 then close acc next st
          else
            let k := if isJsonBlank c then blanksEnd z (next + 1) else next
            if isJsonBlank c && byteAt z k == 44 then objectFrom z fuel (k + 1) acc st
            else if isJsonBlank c && byteAt z k == 125 then close acc k st
            else
              match valueAt z fuel k st with
              | (.comma, st) => objectFrom z fuel (st.errorAt + 1) acc st
              | (.closeBrace, st) => close acc st.errorAt st
              | (_, st) => (.failed, { st with errorAt := k })
        | (x, st) => failAt x jv st

end

/-- Reads JSON text: the element, and whether anything beyond standard JSON
was used; or the place of the byte where reading failed.  Blanks and
comments may stand around the value; the text ends at its first NUL. -/
def readText (z : ByteArray) : Except Nat (Element × Bool) :=
  match valueAt z (4 * z.size + 8) 0 {} with
  | (.value e i, st) =>
    let i := blanksEnd z i
    if byteAt z i == 0 then .ok (e, st.nonstandard)
    else if byteAt z (skipRelaxed z i) == 0 then .ok (e, true)
    else .error st.errorAt
  | (_, st) => .error st.errorAt

end Json
end Sql
end PowChain
