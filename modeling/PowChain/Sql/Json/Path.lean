import PowChain.Sql.Json.Element
import PowChain.Sql.Builtin.Text

/-!
# Labels, paths and edits

A path names a place in an element: `$`, then steps `.label`,
`."label"` and `[n]`, where `n` may also be `#` (one past the last item)
or `#-k`.  `Element.find` follows a path; `Element.edit` removes, replaces
or inserts at the place it names, and under insertion builds the arrays and
objects the rest of a path asks for.  `mergePatch` merges one element into
another as a JSON merge patch does.

Labels are compared by the characters they stand for: escapes read, the
comparison stopping at the first NUL.  Two labels with no escapes are
compared byte for byte.
-/

namespace PowChain
namespace Sql
namespace Json

/-- The code a malformed escape stands for, which is no character. -/
def invalidCode : Nat := 0x99999

/-- The code of a character read from at most four bytes of UTF-8, taking
only continuation bytes after the first; and how many bytes it took. -/
def readCodeLimited (l : List UInt8) : Nat × Nat :=
  match l with
  | [] => (0, 0)
  | b :: rest =>
    if b.toNat < 0xc0 then (b.toNat, 1)
    else
      let conts := (rest.take 3).takeWhile Text.isContinuation
      (conts.foldl (fun c x => c * 64 + x.toNat % 64) (Text.leadBits b), 1 + conts.length)

/-- The value of four hexadecimal digits. -/
def hex4 (l : List UInt8) : Nat := (l.take 4).foldl (fun v b => v * 16 + hexValue b) 0

/-- How many bytes of escaped line breaks start a text: backslashes each
before a newline, a carriage return (and newline), or a line or paragraph
separator. -/
def bypassLength : Nat → List UInt8 → Nat
  | 0, _ => 0
  | fuel + 1, l =>
    match l with
    | 92 :: 10 :: rest => 2 + bypassLength fuel rest
    | 92 :: 13 :: 10 :: rest => 3 + bypassLength fuel rest
    | 92 :: 13 :: rest => 2 + bypassLength fuel rest
    | 92 :: 0xe2 :: 0x80 :: x :: rest =>
      if x == 0xa8 || x == 0xa9 then 4 + bypassLength fuel rest else 0
    | _ => 0

/-- The code an escape at the start of a text stands for, and how many bytes
it takes: `\uXXXX` (two of them for a surrogate pair), `\xXX`, one of
`\b \f \n \r \t \v \0 \' \" \/ \\`, or escaped line breaks before a
character. -/
def unescapeOne : Nat → List UInt8 → Nat × Nat
  | 0, l => (invalidCode, l.length)
  | fuel + 1, l =>
    let n := l.length
    if n < 2 then (invalidCode, n)
    else
      let d := l.getD 1 0
      if d == 117 then
        if n < 6 then (invalidCode, n)
        else
          let v := hex4 (l.drop 2)
          let vlo := hex4 (l.drop 8)
          if v / 1024 == 0xd800 / 1024 && n ≥ 12 && l.getD 6 0 == 92 && l.getD 7 0 == 117 &&
              vlo / 1024 == 0xdc00 / 1024 then
            ((v % 1024) * 1024 + vlo % 1024 + 0x10000, 12)
          else (v, 6)
      else if d == 98 then (8, 2)
      else if d == 102 then (12, 2)
      else if d == 110 then (10, 2)
      else if d == 114 then (13, 2)
      else if d == 116 then (9, 2)
      else if d == 118 then (11, 2)
      else if d == 48 then (0, 2)
      else if d == 39 || d == 34 || d == 47 || d == 92 then (d.toNat, 2)
      else if d == 120 then
        if n < 4 then (invalidCode, n) else (hexValue (l.getD 2 0) * 16 + hexValue (l.getD 3 0), 4)
      else if d == 0xe2 || d == 13 || d == 10 then
        let skip := bypassLength n l
        if skip == 0 then (invalidCode, n)
        else if skip ≥ n then (0, n)
        else
          let rest := l.drop skip
          if rest.head? == some 92 then
            let (c, k) := unescapeOne fuel rest
            (c, skip + k)
          else
            let (c, k) := readCodeLimited rest
            (c, skip + k)
      else (invalidCode, 2)

/-- The codes of the characters of a label, escapes read unless it is
`literal`. -/
def labelCodes (literal : Bool) : Nat → List UInt8 → List Nat
  | 0, _ => []
  | _ + 1, [] => []
  | fuel + 1, b :: rest =>
    let l := b :: rest
    let (c, k) :=
      if literal || b != 92 then (if b.toNat ≥ 0xc0 then readCodeLimited l else (b.toNat, 1))
      else unescapeOne (l.length + 1) l
    c :: labelCodes literal fuel (l.drop (max k 1))

/-- Whether two labels stand for the same characters, up to the first NUL;
labels with no escapes are compared byte for byte. -/
def sameLabel (a : List UInt8) (aLiteral : Bool) (b : List UInt8) (bLiteral : Bool) : Bool :=
  if aLiteral && bLiteral then a == b
  else
    (labelCodes aLiteral (a.length + 1) a).takeWhile (· != 0) ==
      (labelCodes bLiteral (b.length + 1) b).takeWhile (· != 0)

/-- Whether a string element's bytes name a label. -/
def Chars.names (c : Chars) (key : List UInt8) (literal : Bool) : Bool :=
  sameLabel key literal c.bytes c.literal

/-! ## Paths -/

/-- Why a path names no place. -/
inductive Miss where
  /-- The path is well formed, but the element has nothing there. -/
  | notFound
  /-- The path is malformed. -/
  | badPath
  deriving DecidableEq

/-- The label of a step after its `.`: in double quotes (its escapes read
when it has any) or up to the next `.` or `[`; whether it has no escapes,
and the rest of the path.  None for an empty label or a missing closing
quote. -/
def labelStep (p : List UInt8) : Option (List UInt8 × Bool × List UInt8) :=
  match p with
  | 34 :: rest =>
    let key := rest.takeWhile (· != 34)
    match rest.drop key.length with
    | [] => none
    | _ :: tail => some (key, !key.contains 92, tail)
  | _ =>
    let key := p.takeWhile fun c => c != 46 && c != 91
    if key.isEmpty then none else some (key, true, p.drop key.length)

/-- A count of decimal digits as a 32-bit word. -/
def digitsValue (ds : List UInt8) : Nat := ds.foldl (fun k d => (k * 10 + (d.toNat - 48)) % twoPow 32) 0

/-- The index of a step after its `[` in an array of `count` items, and the
rest of the path: digits, `#` or `#-k`, then `]`. -/
def indexStep (p : List UInt8) (count : Nat) : Except Miss (Nat × List UInt8) :=
  let digits := p.takeWhile isDigitUnit
  let rest := p.drop digits.length
  if !digits.isEmpty && rest.head? == some 93 then .ok (digitsValue digits, rest.drop 1)
  else if p.head? == some 35 then
    let q := p.drop 1
    match q with
    | 45 :: d :: _ =>
      if isDigitUnit d then
        let back := (q.drop 1).takeWhile isDigitUnit
        let nn := digitsValue back
        let after := (q.drop 1).drop back.length
        if nn > count then .error .notFound
        else if after.head? == some 93 then .ok (count - nn, after.drop 1)
        else .error .badPath
      else if q.head? == some 93 then .ok (count, q.drop 1) else .error .badPath
    | _ => if q.head? == some 93 then .ok (count, q.drop 1) else .error .badPath
  else .error .badPath

/-- The element a path names, its `$` left off. -/
def Element.find : Nat → List UInt8 → Element → Except Miss Element
  | 0, _, _ => .error .notFound
  | _ + 1, [], e => .ok e
  | fuel + 1, 46 :: p, e =>
    match labelStep p with
    | none => .error .badPath
    | some (key, literal, tail) =>
      match e with
      | .object ms =>
        match ms.find? fun (k, _) => k.names key literal with
        | some (_, v) => Element.find fuel tail v
        | none => .error .notFound
      | _ => .error .notFound
  | fuel + 1, 91 :: p, e =>
    match e with
    | .array items =>
      match indexStep p items.length with
      | .error m => .error m
      | .ok (k, tail) =>
        match items[k]? with
        | some v => Element.find fuel tail v
        | none => .error .notFound
    | _ => .error .notFound
  | _ + 1, _, _ => .error .badPath

/-- What an edit does at the place a path names. -/
inductive EditKind where
  | remove
  | replace
  /-- Adds what is missing; leaves what is there. -/
  | insert
  /-- Adds what is missing and replaces what is there. -/
  | set
  deriving DecidableEq

/-- Whether an edit adds what is missing. -/
def EditKind.adds (k : EditKind) : Bool := k == .insert || k == .set

mutual

/-- An element edited at the place a path names, its `$` left off: none
when the element itself is removed. -/
def Element.edit (kind : EditKind) (ins : Element) : Nat → List UInt8 → Element → Except Miss (Option Element)
  | 0, _, _ => .error .notFound
  | _ + 1, [], e =>
    match kind with
    | .remove => .ok none
    | .insert => .ok (some e)
    | _ => .ok (some ins)
  | fuel + 1, 46 :: p, e =>
    match labelStep p with
    | none => .error .badPath
    | some (key, literal, tail) =>
      match e with
      | .object ms =>
        match ms.findIdx? (fun (k, _) => k.names key literal) with
        | some idx =>
          match ms[idx]? with
          | some (k, v) =>
            match Element.edit kind ins fuel tail v with
            | .error m => .error m
            | .ok none => .ok (some (.object (ms.eraseIdx idx)))
            | .ok (some v') => .ok (some (.object (ms.set idx (k, v'))))
          | none => .error .notFound
        | none =>
          if kind.adds then
            match freshPart kind ins fuel tail with
            | .error m => .error m
            | .ok v => .ok (some (.object (ms ++ [(⟨if literal then .raw else .relaxed, key⟩, v)])))
          else .error .notFound
      | _ => .error .notFound
  | fuel + 1, 91 :: p, e =>
    match e with
    | .array items =>
      match indexStep p items.length with
      | .error m => .error m
      | .ok (k, tail) =>
        match items[k]? with
        | some v =>
          match Element.edit kind ins fuel tail v with
          | .error m => .error m
          | .ok none => .ok (some (.array (items.eraseIdx k)))
          | .ok (some v') => .ok (some (.array (items.set k v')))
        | none =>
          if k == items.length && kind.adds then
            match freshPart kind ins fuel tail with
            | .error m => .error m
            | .ok v => .ok (some (.array (items ++ [v])))
          else .error .notFound
    | _ => .error .notFound
  | _ + 1, _, _ => .error .badPath

/-- What an insertion puts where a path runs out of places: the element
itself at the end of the path, else an object or array, as the next step
asks, with the rest inserted into it. -/
def freshPart (kind : EditKind) (ins : Element) : Nat → List UInt8 → Except Miss Element
  | 0, _ => .error .notFound
  | _ + 1, [] => .ok ins
  | fuel + 1, c :: rest =>
    let start : Element := if c == 46 then .object [] else .array []
    match Element.edit kind ins fuel (c :: rest) start with
    | .error m => .error m
    | .ok v => .ok (v.getD start)

end

/-- Whether an element is null. -/
def Element.isNull : Element → Bool
  | .null => true
  | _ => false

/-- Whether an element is an object. -/
def Element.isObject : Element → Bool
  | .object _ => true
  | _ => false

/-- `target` with `patch` merged into it: a patch that is not an object
takes the target's place; an object patch is merged member by member into
the target (an empty object when the target is not one), a null removing
the member of its label, and a member the target lacks added at its end. -/
def mergePatch : Nat → Element → Element → Element
  | 0, target, _ => target
  | fuel + 1, target, .object pms =>
    let tms := match target with
      | .object ms => ms
      | _ => []
    .object (pms.foldl (fun tms (pk, pv) =>
      match tms.findIdx? (fun (tk, _) => tk.names pk.bytes pk.literal) with
      | some idx =>
        if pv.isNull then tms.eraseIdx idx
        else
          match tms[idx]? with
          | some (tk, tv) => tms.set idx (tk, mergePatch fuel tv pv)
          | none => tms
      | none =>
        if pv.isNull then tms
        else if pv.isObject then tms ++ [(pk, mergePatch fuel .null pv)]
        else tms ++ [(pk, pv)]) tms)
  | _ + 1, _, patch => patch

end Json
end Sql
end PowChain
