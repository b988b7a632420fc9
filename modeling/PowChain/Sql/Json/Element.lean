import PowChain.Sql.NumberText

/-!
# JSON elements

A JSON value as the engine holds it.  Numbers keep the text they were
written with, and strings keep their bytes as written, with their escapes,
together with a note of which escapes may occur in them; so a value that is
only read and written again comes out as it went in, numbers unchanged.

The binary form of an element (JSONB) is a header and a payload.  The low
four bits of the first byte are the kind of element (`Element.code`); the
high four bits are the size of the payload when it is at most 11, and
otherwise 12, 13, 14 or 15 to say that the size follows in one, two, four
or eight bytes, most significant first.  The payload of a number or a string
is its text; that of an array, its items one after another; that of an
object, its labels and values in turn.  `Element.encode` always writes the
shortest header; `decode` reads any header that fits the bytes.

`Element.render` writes an element as standard JSON text: a JSON5 number or
string is put into standard form there, a hexadecimal integer in decimal.
-/

namespace PowChain
namespace Sql
namespace Json

/-- Which escapes the bytes of a string may hold. -/
inductive Spelling where
  /-- None: the bytes stand for themselves. -/
  | plain
  /-- The escapes of standard JSON. -/
  | escaped
  /-- The escapes of JSON5, or a double quote that must be escaped when the
  string is written. -/
  | relaxed
  /-- None, but the bytes are text from SQL, to be escaped when written. -/
  | raw
  deriving DecidableEq, Repr

/-- The bytes of a string as an element holds them. -/
structure Chars where
  spelling : Spelling
  bytes : List UInt8
  deriving DecidableEq

/-- Whether the bytes of a string stand for themselves, with no escapes. -/
def Chars.literal (c : Chars) : Bool := c.spelling == .plain || c.spelling == .raw

/-- A JSON value. -/
inductive Element where
  | null
  | bool (b : Bool)
  /-- An integer as written: in decimal, or in hexadecimal after `0x`. -/
  | integer (text : List UInt8) (hex : Bool)
  /-- A real as written; `relaxed` when it has no digit on one side of its
  point. -/
  | real (text : List UInt8) (relaxed : Bool)
  | string (chars : Chars)
  | array (items : List Element)
  | object (members : List (Chars × Element))

/-- The highest kind of element the binary form has. -/
def maxCode : Nat := 12

/-- The kind of a string in the binary form. -/
def Spelling.code : Spelling → Nat
  | .plain => 7
  | .escaped => 8
  | .relaxed => 9
  | .raw => 10

/-- The kind of an element in the binary form. -/
def Element.code : Element → Nat
  | .null => 0
  | .bool true => 1
  | .bool false => 2
  | .integer _ hex => if hex then 4 else 3
  | .real _ relaxed => if relaxed then 6 else 5
  | .string c => c.spelling.code
  | .array _ => 11
  | .object _ => 12

/-- The name of a kind of element, as `json_type` gives it. -/
def typeName (code : Nat) : String :=
  match code with
  | 0 => "null"
  | 1 => "true"
  | 2 => "false"
  | 3 | 4 => "integer"
  | 5 | 6 => "real"
  | 7 | 8 | 9 | 10 => "text"
  | 11 => "array"
  | 12 => "object"
  | _ => ""

/-! ## The binary form -/

/-- The header of an element of a kind with a payload of a size, the
shortest that holds the size. -/
def header (code size : Nat) : List UInt8 :=
  if size ≤ 11 then [UInt8.ofNat (code + size * 16)]
  else if size ≤ 0xff then [UInt8.ofNat (code + 0xc0), UInt8.ofNat size]
  else if size ≤ 0xffff then [UInt8.ofNat (code + 0xd0), UInt8.ofNat (size / 256), UInt8.ofNat size]
  else
    [UInt8.ofNat (code + 0xe0), UInt8.ofNat (size / 16777216), UInt8.ofNat (size / 65536),
     UInt8.ofNat (size / 256), UInt8.ofNat size]

/-- A string in the binary form. -/
def Chars.encode (c : Chars) : List UInt8 := header c.spelling.code c.bytes.length ++ c.bytes

mutual

/-- An element in the binary form. -/
def Element.encode : Element → List UInt8
  | .null => [0]
  | .bool b => [if b then 1 else 2]
  | .integer t hex => header (if hex then 4 else 3) t.length ++ t
  | .real t relaxed => header (if relaxed then 6 else 5) t.length ++ t
  | .string c => c.encode
  | .array items =>
    let p := encodeItems items
    header 11 p.length ++ p
  | .object members =>
    let p := encodeMembers members
    header 12 p.length ++ p

/-- Items in the binary form, one after another. -/
def encodeItems : List Element → List UInt8
  | [] => []
  | e :: es => e.encode ++ encodeItems es

/-- Members in the binary form, each label before its value. -/
def encodeMembers : List (Chars × Element) → List UInt8
  | [] => []
  | (k, v) :: ms => k.encode ++ v.encode ++ encodeMembers ms

end

/-- A number from bytes, most significant first. -/
def bigEndian (l : List UInt8) : Nat := l.foldl (fun acc b => acc * 256 + b.toNat) 0

/-- The header at the start of bytes: its length and the size of the
payload after it, when the bytes hold both. -/
def readHeader (l : List UInt8) : Option (Nat × Nat) :=
  match l with
  | [] => none
  | h :: rest =>
    let x := h.toNat / 16
    let sized : Option (Nat × Nat) :=
      if x ≤ 11 then some (1, x)
      else if x == 12 then if rest.length ≥ 1 then some (2, bigEndian (rest.take 1)) else none
      else if x == 13 then if rest.length ≥ 2 then some (3, bigEndian (rest.take 2)) else none
      else if x == 14 then if rest.length ≥ 4 then some (5, bigEndian (rest.take 4)) else none
      else if rest.length ≥ 8 && (rest.take 4).all (· == 0) then some (9, bigEndian ((rest.drop 4).take 4))
      else none
    sized.bind fun (n, sz) => if n + sz ≤ l.length then some (n, sz) else none

/-- Whether bytes are one element in the binary form as far as its header
tells: a known kind, a header whose size takes up exactly the bytes, and
no payload for null, true and false. -/
def looksBinary (l : List UInt8) : Bool :=
  match l, readHeader l with
  | h :: _, some (n, sz) =>
    let code := h.toNat % 16
    code ≤ maxCode && n + sz == l.length && (code > 2 || sz == 0)
  | _, _ => false

mutual

/-- Reads the element at the start of bytes in the binary form, and the
bytes after it; none when they do not hold a well-formed element. -/
def decode : Nat → List UInt8 → Option (Element × List UInt8)
  | 0, _ => none
  | fuel + 1, l => do
    let (n, sz) ← readHeader l
    let code := (l.headD 0).toNat % 16
    let payload := (l.drop n).take sz
    let rest := l.drop (n + sz)
    let e ← match code with
      | 0 => if sz == 0 then some Element.null else none
      | 1 => if sz == 0 then some (Element.bool true) else none
      | 2 => if sz == 0 then some (Element.bool false) else none
      | 3 => some (.integer payload false)
      | 4 => some (.integer payload true)
      | 5 => some (.real payload false)
      | 6 => some (.real payload true)
      | 7 => some (.string ⟨.plain, payload⟩)
      | 8 => some (.string ⟨.escaped, payload⟩)
      | 9 => some (.string ⟨.relaxed, payload⟩)
      | 10 => some (.string ⟨.raw, payload⟩)
      | 11 => (decodeItems fuel payload).map Element.array
      | 12 => (decodeMembers fuel payload).map Element.object
      | _ => none
    pure (e, rest)

/-- Reads the items of an array from its payload. -/
def decodeItems : Nat → List UInt8 → Option (List Element)
  | 0, _ => none
  | _ + 1, [] => some []
  | fuel + 1, l => do
    let (e, rest) ← decode fuel l
    let es ← decodeItems fuel rest
    pure (e :: es)

/-- Reads the members of an object from its payload: each label a string. -/
def decodeMembers : Nat → List UInt8 → Option (List (Chars × Element))
  | 0, _ => none
  | _ + 1, [] => some []
  | fuel + 1, l => do
    let (k, rest) ← decode fuel l
    let (v, rest) ← decode fuel rest
    let ms ← decodeMembers fuel rest
    match k with
    | .string c => pure ((c, v) :: ms)
    | _ => none

end

/-- The element bytes in the binary form hold, none when they hold anything
else. -/
def Element.ofBinary? (l : List UInt8) : Option Element :=
  if looksBinary l then
    match decode (l.length + 1) l with
    | some (e, []) => some e
    | _ => none
  else none

/-! ## Writing standard JSON -/

/-- The lower-case hexadecimal digit of a number below 16. -/
def hexDigit (n : Nat) : UInt8 := "0123456789abcdef".toUTF8.toList.getD (n % 16) 48

/-- The value of a hexadecimal digit, for a byte that is one. -/
def hexValue (b : UInt8) : Nat :=
  let h := b.toNat
  (h + 9 * ((h / 64) % 2)) % 16

/-- Whether a byte is a hexadecimal digit. -/
def isHexUnit (b : UInt8) : Bool :=
  isDigitUnit b || (97 ≤ b && b ≤ 102) || (65 ≤ b && b ≤ 70)

/-- A control character as a JSON escape: `\b`, `\t`, `\n`, `\f`, `\r` or
`\u00XX`. -/
def controlEscape (c : UInt8) : List UInt8 :=
  match c.toNat with
  | 8 => [92, 98]
  | 9 => [92, 116]
  | 10 => [92, 110]
  | 12 => [92, 102]
  | 13 => [92, 114]
  | k => [92, 117, 48, 48, hexDigit (k / 16), hexDigit k]

/-- A string from SQL as a JSON string: in double quotes, with a quote and a
backslash escaped, and a control character escaped. -/
def quoteBytes (l : List UInt8) : List UInt8 :=
  let esc (c : UInt8) : List UInt8 :=
    if c == 34 || c == 92 then [92, c]
    else if c < 32 then controlEscape c
    else [c]
  [34] ++ l.flatMap esc ++ [34]

/-- A hexadecimal integer in decimal: digits past the sixty-fourth bit make
it `9.0e999`; none when a digit is not hexadecimal. -/
def hexIntegerText (t : List UInt8) : Option (List UInt8) :=
  let (sign, digits) : List UInt8 × List UInt8 := match t with
    | 45 :: rest => ([45], rest.drop 2)
    | 43 :: rest => ([], rest.drop 2)
    | _ => ([], t.drop 2)
  if !digits.all isHexUnit then none
  else
    let (u, overflow) := digits.foldl (fun (u, wide) b =>
      if u / twoPow 60 != 0 then (u, true) else (u * 16 + hexValue b, wide)) (0, false)
    some (sign ++ (if overflow then "9.0e999" else toString u).toUTF8.toList)

/-- A real with no digit beside its point, given one: a zero before a
leading point and after a trailing one. -/
def relaxedRealText (t : List UInt8) : List UInt8 :=
  let (sign, body) := match t with
    | 45 :: rest => ([(45 : UInt8)], rest)
    | _ => ([], t)
  let lead : List UInt8 := if body.head? == some 46 then [48] else []
  let rec go : List UInt8 → List UInt8
    | [] => []
    | b :: rest =>
      if b == 46 && !(rest.head?.map isDigitUnit).getD false then b :: 48 :: go rest else b :: go rest
  sign ++ lead ++ go body

/-- A string with JSON5 escapes in standard JSON, between double quotes: a
double quote and a control character escaped, `\'` as a quote, `\v` as `\u0009`, `\xHH` as
`\u00HH`, `\0` as `\u0000`, an escaped line break left out; none for an
escape cut short. -/
def relaxedStringText (l : List UInt8) : Option (List UInt8) :=
  let rec go : Nat → List UInt8 → Option (List UInt8)
    | 0, _ => some []
    | _ + 1, [] => some []
    | fuel + 1, c :: rest =>
      if c == 34 then ([92, 34] ++ ·) <$> go fuel rest
      else if c < 32 then (controlEscape c ++ ·) <$> go fuel rest
      else if c != 92 then (c :: ·) <$> go fuel rest
      else
        match rest with
        | [] => none
        | d :: more =>
          if d == 39 then (39 :: ·) <$> go fuel more
          else if d == 118 then ("\\u0009".toUTF8.toList ++ ·) <$> go fuel more
          else if d == 120 then
            match more with
            | h1 :: h2 :: after => ("\\u00".toUTF8.toList ++ [h1, h2] ++ ·) <$> go fuel after
            | _ => none
          else if d == 48 then ("\\u0000".toUTF8.toList ++ ·) <$> go fuel more
          else if d == 13 then go fuel (if more.head? == some 10 then more.drop 1 else more)
          else if d == 10 then go fuel more
          else if d == 0xe2 then
            match more with
            | 0x80 :: x :: after => if x == 0xa8 || x == 0xa9 then go fuel after else none
            | _ => none
          else ([92, d] ++ ·) <$> go fuel more
  (fun body => [34] ++ body ++ [34]) <$> go (l.length + 1) l

/-- A string element as standard JSON text. -/
def Chars.render (c : Chars) : Option (List UInt8) :=
  match c.spelling with
  | .plain | .escaped => some ([34] ++ c.bytes ++ [34])
  | .relaxed => relaxedStringText c.bytes
  | .raw => some (quoteBytes c.bytes)

/-- Joins pieces with a separator. -/
def joinWith (sep : UInt8) : List (List UInt8) → List UInt8
  | [] => []
  | p :: ps => p ++ ps.flatMap (sep :: ·)

mutual

/-- An element as standard JSON text, with no blanks; none when a number or
a string in it is malformed. -/
def Element.render : Element → Option (List UInt8)
  | .null => some "null".toUTF8.toList
  | .bool b => some (if b then "true" else "false").toUTF8.toList
  | .integer t hex => if hex then hexIntegerText t else some t
  | .real t relaxed => some (if relaxed then relaxedRealText t else t)
  | .string c => c.render
  | .array items => (fun ps => [91] ++ joinWith 44 ps ++ [93]) <$> renderItems items
  | .object members => (fun ps => [123] ++ joinWith 44 ps ++ [125]) <$> renderMembers members

/-- The items of an array as text. -/
def renderItems : List Element → Option (List (List UInt8))
  | [] => some []
  | e :: es => do pure ((← e.render) :: (← renderItems es))

/-- The members of an object as text, each `label:value`. -/
def renderMembers : List (Chars × Element) → Option (List (List UInt8))
  | [] => some []
  | (k, v) :: ms => do pure (((← k.render) ++ [58] ++ (← v.render)) :: (← renderMembers ms))

end

end Json
end Sql
end PowChain
