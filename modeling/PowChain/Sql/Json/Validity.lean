import PowChain.Sql.Json.Path
import PowChain.Sql.Json.Reader

/-!
# Checking the binary form

`firstFault` checks bytes in the binary form strictly: every header fits,
an object has text labels and a value for each, integers are digits (or
`0x` and hexadecimal digits), reals have digits where standard JSON wants
them (JSON5 reals may leave them out beside the point), and strings hold
only what their spelling allows.  It gives `0` for bytes that pass, else
the place, counted from 1, of the byte where the fault was found.
-/

namespace PowChain
namespace Sql
namespace Json

/-- The header at place `i` of bytes: its length and the size of the
payload after it, when both lie within the bytes. -/
def headerAt (b : ByteArray) (i : Nat) : Option (Nat × Nat) :=
  if i ≥ b.size then none
  else (readHeader (b.extract i b.size).toList)

/-- The first place in `[j, k)` whose byte fails `p`, counted from 1, or
`0`. -/
def firstFailing (b : ByteArray) (p : UInt8 → Bool) : Nat → Nat → Nat → Nat
  | 0, _, _ => 0
  | fuel + 1, j, k => if j ≥ k then 0 else if p (byteAt b j) then firstFailing b p fuel (j + 1) k else j + 1

/-- Whether a byte may stand in a string that has no escapes: not a quote,
a backslash or a control character. -/
def plainByte (c : UInt8) : Bool := c ≥ 32 && c != 34 && c != 92

/-- Checks the text of an integer at `[j, k)`, `i` its header. -/
def checkInteger (b : ByteArray) (i j k : Nat) (hex : Bool) : Nat :=
  let sz := k - j
  if !hex then
    if sz < 1 then i + 1
    else if byteAt b j == 45 && sz < 2 then i + 1
    else firstFailing b isDigitUnit sz (if byteAt b j == 45 then j + 1 else j) k
  else if sz < 3 then i + 1
  else if byteAt b j == 45 && sz < 4 then i + 1
  else
    let j := if byteAt b j == 45 then j + 1 else j
    if byteAt b j != 48 then i + 1
    else if byteAt b (j + 1) != 120 && byteAt b (j + 1) != 88 then j + 2
    else firstFailing b isHexUnit sz (j + 2) k

/-- Checks the digits, point and exponent of a real from `j` to `k`:
`seen` is `0` after a digit, `1` after the point, `2` after the exponent. -/
def checkRealBody (b : ByteArray) (relaxed : Bool) (i k : Nat) : Nat → Nat → Nat → Nat
  | 0, _, _ => 0
  | fuel + 1, j, seen =>
    if j ≥ k then (if seen == 0 then i + 1 else 0)
    else
      let c := byteAt b j
      if isDigitUnit c then checkRealBody b relaxed i k fuel (j + 1) seen
      else if c == 46 then
        if seen > 0 then j + 1
        else if !relaxed && (j + 1 == k || !isDigitUnit (byteAt b (j + 1))) then j + 1
        else checkRealBody b relaxed i k fuel (j + 1) 1
      else if c == 101 || c == 69 then
        if seen == 2 || j + 1 == k then j + 1
        else
          let j := if byteAt b (j + 1) == 43 || byteAt b (j + 1) == 45 then j + 1 else j
          if j + 1 == k then j + 1 else checkRealBody b relaxed i k fuel (j + 1) 2
      else j + 1

/-- Checks the text of a real at `[j, k)`, `i` its header. -/
def checkReal (b : ByteArray) (i j k : Nat) (relaxed : Bool) : Nat :=
  let sz := k - j
  if sz < 2 then i + 1
  else if byteAt b j == 45 && sz < 3 then i + 1
  else
    let j := if byteAt b j == 45 then j + 1 else j
    if byteAt b j == 46 then
      if !relaxed || !isDigitUnit (byteAt b (j + 1)) then j + 1
      else checkRealBody b relaxed i k (sz + 1) (j + 2) 1
    else if byteAt b j == 48 && !relaxed then
      if j + 3 > k then j + 1
      else
        let c := byteAt b (j + 1)
        if c != 46 && c != 101 && c != 69 then j + 1
        else checkRealBody b relaxed i k (sz + 1) (j + 1) 0
    else checkRealBody b relaxed i k (sz + 1) j 0

/-- Checks the text of a string with escapes at `[j, k)`: standard escapes
only, unless `relaxed`, when JSON5 escapes, quotes and control characters
may stand in it too. -/
def checkEscaped (b : ByteArray) (relaxed : Bool) (k : Nat) : Nat → Nat → Nat
  | 0, _ => 0
  | fuel + 1, j =>
    if j ≥ k then 0
    else
      let c := byteAt b j
      if plainByte c || c == 39 then checkEscaped b relaxed k fuel (j + 1)
      else if c == 34 || c < 32 then (if relaxed then checkEscaped b relaxed k fuel (j + 1) else j + 1)
      else if j + 1 ≥ k then j + 1
      else
        let d := byteAt b (j + 1)
        if d == 34 || d == 92 || d == 47 || d == 98 || d == 102 || d == 110 || d == 114 || d == 116 || d == 0 then
          checkEscaped b relaxed k fuel (j + 2)
        else if d == 117 then
          if j + 5 ≥ k || !hexRun b (j + 2) 4 then j + 1 else checkEscaped b relaxed k fuel (j + 2)
        else if !relaxed then j + 1
        else
          let (code, size) := unescapeOne (k - j + 1) (b.extract j k).toList
          if code == invalidCode then j + 1 else checkEscaped b relaxed k fuel (j + max size 1)

mutual

/-- Checks the element at `i`, which must end at `iEnd`, `depth` deep. -/
def checkAt (b : ByteArray) : Nat → Nat → Nat → Nat → Nat
  | 0, i, _, _ => i + 1
  | fuel + 1, i, iEnd, depth =>
    if depth > maxDepth then i + 1
    else
      match headerAt b i with
      | none => i + 1
      | some (n, sz) =>
        if i + n + sz != iEnd then i + 1
        else
          let j := i + n
          let k := j + sz
          match (byteAt b i).toNat % 16 with
          | 0 | 1 | 2 => if n + sz == 1 then 0 else i + 1
          | 3 => checkInteger b i j k false
          | 4 => checkInteger b i j k true
          | 5 => checkReal b i j k false
          | 6 => checkReal b i j k true
          | 7 => firstFailing b (fun c => plainByte c || c == 39) sz j k
          | 8 => checkEscaped b false k (sz + 1) j
          | 9 => checkEscaped b true k (sz + 1) j
          | 10 => 0
          | 11 => checkChildren b fuel false j k (depth + 1) 0
          | 12 => checkChildren b fuel true j k (depth + 1) 0
          | _ => i + 1

/-- Checks the children of an array or object from `j` up to `k`; `count`
of them checked so far. -/
def checkChildren (b : ByteArray) : Nat → Bool → Nat → Nat → Nat → Nat → Nat
  | 0, _, j, _, _, _ => j + 1
  | fuel + 1, isObject, j, k, depth, count =>
    if j ≥ k then (if isObject && count % 2 == 1 then j + 1 else 0)
    else
      match headerAt b j with
      | none => j + 1
      | some (n, sz) =>
        if j + n + sz > k then j + 1
        else
          let code := (byteAt b j).toNat % 16
          if isObject && count % 2 == 0 && (code < 7 || code > 10) then j + 1
          else
            let sub := checkAt b fuel j (j + n + sz) depth
            if sub != 0 then sub else checkChildren b fuel isObject (j + n + sz) k depth (count + 1)

end

/-- The place, counted from 1, of the first fault of bytes in the binary
form; `0` when they have none. -/
def firstFault (b : ByteArray) : Nat := checkAt b (2 * b.size + 2) 0 b.size 1

end Json
end Sql
end PowChain
