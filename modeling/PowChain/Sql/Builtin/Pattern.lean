import PowChain.Sql.Builtin.Text

/-!
# Pattern matching: `LIKE` and `GLOB`

A pattern is matched against a text character by character, both read up
to their first NUL with the byte reading of `Text.readChar`.

* `LIKE`: `%` matches any run of characters, `_` any one character, and
  ASCII letters match either case.  An escape character, when one is
  given, makes the character after it plain; an escape that is itself `%`
  or `_` takes that wildcard's place.
* `GLOB`: `*` matches any run, `?` any one character, and `[...]` one
  character of a set (ranges `a-z`, `[^...]` for the complement, a `]`
  first in the set stands for itself).  Case matters.

After a run wildcard the matcher tries each place in the text where the
rest of the pattern could start; once the rest fails in a way that no later
place can mend (`Outcome.noWildcardMatch`), it stops searching, which keeps
the work polynomial.  The result is `Pattern.like`.
-/

namespace PowChain
namespace Sql
namespace Pattern

/-- How a match ends: it succeeds, it fails here, or it fails so that no
later start of the text can succeed either. -/
inductive Outcome where
  | matched
  | noMatch
  | noWildcardMatch
  deriving DecidableEq

/-- The special characters of a kind of pattern. -/
structure Rules where
  /-- The character that matches any run, unless the escape took it. -/
  any : Option Nat
  /-- The character that matches one character, unless the escape took it. -/
  one : Option Nat
  /-- The escape character of `LIKE`, or `[` for `GLOB`. -/
  other : Option Nat
  /-- Whether `other` opens a set rather than escaping. -/
  sets : Bool
  /-- Whether ASCII letters match either case. -/
  noCase : Bool

/-- The next character of a text, `0` at its end. -/
def next (l : List UInt8) : Nat × List UInt8 := (Text.readChar l).getD (0, [])

/-- An ASCII capital in lower case. -/
def lowerCode (c : Nat) : Nat := if 65 ≤ c && c ≤ 90 then c + 32 else c

/-- Reads the items of a set after its first item: whether `c` is among
them, and the pattern after the closing `]`; `none` when the set is not
closed.  `c2` is the item just read and `prior` the item before it, for a
range. -/
def setItems : Nat → Nat → Nat → Nat → Bool → List UInt8 → Option (Bool × List UInt8)
  | 0, _, _, _, _, _ => none
  | fuel + 1, c, c2, prior, seen, p =>
    if c2 == 0 then none
    else if c2 == 93 then some (seen, p)
    else if c2 == 45 && p.head? != some 93 && !p.isEmpty && prior > 0 then
      let (hi, p1) := next p
      let (c3, p2) := next p1
      setItems fuel c c3 0 (seen || (prior ≤ c && c ≤ hi)) p2
    else
      let (c3, p2) := next p
      setItems fuel c c3 c2 (seen || c == c2) p2

/-- Whether the character `c` is in the set that starts the pattern `p`
(just after its `[`), with the pattern after the set; `none` when it is
not, or when the set is not closed. -/
def inSet (c : Nat) (p : List UInt8) : Option (List UInt8) :=
  let (c2, p1) := next p
  let (invert, c2, p1) := if c2 == 94 then (true, next p1) else (false, c2, p1)
  let (seen, c2, p1) := if c2 == 93 then (c == 93, next p1) else (false, c2, p1)
  match setItems (p1.length + 1) c c2 0 seen p1 with
  | some (seen, rest) => if seen != invert then some rest else none
  | none => none

/-- Whether a byte is one a search for the ASCII character `c` stops at. -/
def stopsAt (r : Rules) (c : Nat) (b : UInt8) : Bool :=
  b.toNat == c || (r.noCase && lowerCode b.toNat == lowerCode c)

mutual

/-- Matches a pattern against a text. -/
def compare : Nat → Rules → List UInt8 → List UInt8 → Outcome
  | 0, _, _, _ => .noMatch
  | fuel + 1, r, p, s =>
    let literal (c : Nat) (escaped : Bool) (rest : List UInt8) : Outcome :=
      let (c2, s1) := next s
      if c == c2 then compare fuel r rest s1
      else if r.noCase && c < 128 && c2 < 128 && lowerCode c == lowerCode c2 then
        compare fuel r rest s1
      else if some c == r.one && !escaped && c2 != 0 then compare fuel r rest s1
      else .noMatch
    let (c, p1) := next p
    if c == 0 then (if s.isEmpty then .matched else .noMatch)
    else if some c == r.any then afterAny fuel r p1 s
    else if some c == r.other then
      if !r.sets then
        let (c, p2) := next p1
        if c == 0 then .noMatch else literal c true p2
      else
        let (c, s1) := next s
        if c == 0 then .noMatch
        else
          match inSet c p1 with
          | some p2 => compare fuel r p2 s1
          | none => .noMatch
    else literal c false p1

/-- Matches what follows a run wildcard: further wildcards are taken in
(a one-character wildcard taking one character), then the rest of the
pattern is tried at each place it could start. -/
def afterAny : Nat → Rules → List UInt8 → List UInt8 → Outcome
  | 0, _, _, _ => .noMatch
  | fuel + 1, r, p, s =>
    let (c, p1) := next p
    if c != 0 && some c == r.any then afterAny fuel r p1 s
    else if c != 0 && some c == r.one then
      let (c2, s1) := next s
      if c2 == 0 then .noWildcardMatch else afterAny fuel r p1 s1
    else if c == 0 then .matched
    else if some c == r.other then
      if !r.sets then
        let (c, p2) := next p1
        if c == 0 then .noWildcardMatch else searchFor fuel r c p2 s
      else searchSet fuel r (91 :: p1) s
    else searchFor fuel r c p1 s

/-- Tries the pattern, which starts with a set, at each character of the
text. -/
def searchSet : Nat → Rules → List UInt8 → List UInt8 → Outcome
  | 0, _, _, _ => .noMatch
  | fuel + 1, r, p, s =>
    if s.isEmpty then .noWildcardMatch
    else
      match compare fuel r p s with
      | .noMatch => searchSet fuel r p (Text.skipChar s)
      | o => o

/-- Tries the rest `p` of the pattern just after each occurrence of the
character `c` in the text: an ASCII character is looked for byte by byte
(either case when case does not matter), any other character by
character. -/
def searchFor : Nat → Rules → Nat → List UInt8 → List UInt8 → Outcome
  | 0, _, _, _, _ => .noMatch
  | fuel + 1, r, c, p, s =>
    if c < 128 then
      match s.dropWhile (!stopsAt r c ·) with
      | [] => .noWildcardMatch
      | _ :: s1 =>
        match compare fuel r p s1 with
        | .noMatch => searchFor fuel r c p s1
        | o => o
    else
      let (c2, s1) := next s
      if c2 == 0 then .noWildcardMatch
      else if c2 != c then searchFor fuel r c p s1
      else
        match compare fuel r p s1 with
        | .noMatch => searchFor fuel r c p s1
        | o => o

end

/-- Whether a text matches a pattern under some rules. -/
def matchesText (r : Rules) (pattern text : List UInt8) : Bool :=
  let p := Text.untilNul pattern
  let s := Text.untilNul text
  compare ((p.length + 2) * (s.length + 2)) r p s == .matched

/-- The longest pattern that is matched, in bytes. -/
def maxPatternLength : Nat := 50000

/-- `text LIKE pattern [ESCAPE e]` (`glob` false) or `text GLOB pattern`:
`1` or `0`, null when the text or the pattern is null or the escape is
null.  A pattern longer than 50000 bytes, or an escape of other than one
character, is an error. -/
def like (glob : Bool) (pattern text : Value) (escape : Option Value) : Except String Value := do
  let pat := pattern.render
  if (pat.map ByteArray.size).getD 0 > maxPatternLength then
    throw "LIKE or GLOB pattern too complex"
  let rules ← match escape with
    | none =>
      pure (if glob then { any := some 42, one := some 63, other := some 91, sets := true, noCase := false }
        else { any := some 37, one := some 95, other := none, sets := false, noCase := true : Rules })
    | some e =>
      match e.render with
      | none => return .null
      | some eb =>
        let eb := Text.untilNul eb.toList
        if (Text.splitChars eb).length != 1 then
          throw "ESCAPE expression must be a single character"
        let esc := (next eb).1
        let (any, one) := if glob then ((42 : Nat), (63 : Nat)) else (37, 95)
        pure { any := if esc == any then none else some any,
               one := if esc == one then none else some one,
               other := some esc, sets := false, noCase := !glob }
  match pat, text.render with
  | some p, some t => pure (.int (if matchesText rules p.toList t.toList then 1 else 0))
  | _, _ => pure .null

end Pattern
end Sql
end PowChain
