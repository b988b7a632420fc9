import PowChain.Sql.Json.Reader
import PowChain.Sql.Json.Path
import PowChain.Sql.Json.Validity
import PowChain.Sql.Value
import PowChain.Text.Utf8

/-!
# The JSON functions

The SQL functions on JSON: `json`, `json_array`, `json_object`,
`json_quote`, `json_extract` and the operators `->` and `->>`,
`json_insert`, `json_replace`, `json_set`, `json_remove`, `json_patch`,
`json_type`, `json_valid`, `json_array_length`, `json_error_position`, the
aggregates `json_group_array` and `json_group_object`, and the `jsonb`
forms of those that give JSON, which give it in the binary form.

A JSON argument is text read as JSON (JSON5 allowed), or a blob in the
binary form.  A value argument goes into JSON as a string, a number or
null, unless it is JSON text made by another JSON function: such text is
`Marked`, and goes in as the JSON it holds.
-/

namespace PowChain
namespace Sql
namespace Json

/-- A value as a JSON function takes or gives it, with whether it is JSON
text that a JSON function made. -/
structure Marked where
  value : Value
  json : Bool := false

/-- The message for JSON that cannot be read. -/
def malformed : String := "malformed JSON"

/-- The message for a blob that is not JSON in the binary form. -/
def noBlobs : String := "JSON cannot hold BLOB values"

/-- Bytes as text for a message. -/
def bytesText (l : List UInt8) : String := Utf8.lossy (ByteArray.mk l.toArray)

/-- The message for a malformed path, the path in single quotes. -/
def badPathMessage (path : List UInt8) : String :=
  "bad JSON path: '" ++ (bytesText path).replace "'" "''" ++ "'"

/-- The bytes of a value as text, up to its first NUL; none for null. -/
def textOf (v : Value) : Option (List UInt8) := v.render.map fun b => Text.untilNul b.toList

/-- Bytes as a text value. -/
def textValue (l : List UInt8) : Value := .text (ByteArray.mk l.toArray) .utf8

/-- A blob as an element, when it holds one in the binary form. -/
def binaryElement (b : ByteArray) : Option (Except String Element) :=
  if looksBinary b.toList then some ((Element.ofBinary? b.toList).elim (.error malformed) .ok) else none

/-- The element a JSON argument holds: a blob in the binary form, or text
read as JSON; none for null. -/
def argElement (v : Value) : Except String (Option Element) :=
  match v with
  | .null => .ok none
  | .blob b _ => match binaryElement b with
    | some r => some <$> r
    | none => .error malformed
  | _ =>
    let text := (v.render.map ByteArray.toList).getD []
    if text.isEmpty then .error malformed
    else match readText (ByteArray.mk text.toArray) with
      | .ok (e, _) => .ok (some e)
      | .error _ => .error malformed

/-- The element a value argument puts into JSON. -/
def valueElement (a : Marked) : Except String Element :=
  match a.value with
  | .null => .ok .null
  | .blob b _ => (binaryElement b).getD (.error noBlobs)
  | .text b e =>
    let b := e.decode b
    if a.json then
      match readText b with
      | .ok (e, _) => .ok e
      | .error _ => .error malformed
    else .ok (.string ⟨.raw, b.toList⟩)
  | .real bits =>
    let t := realText bits
    .ok (.real (if t.startsWith "I" then "9e999" else if t.startsWith "-I" then "-9e999" else t).toUTF8.toList false)
  | .int i => .ok (.integer (toString i).toUTF8.toList false)

/-- The JSON text of a value argument: a double with fifteen significant
digits and an infinity as `9.0e+999`, text as a JSON string unless it is
marked JSON, a blob in the binary form as its text. -/
def valueText (a : Marked) : Except String (List UInt8) :=
  match a.value with
  | .null => .ok "null".toUTF8.toList
  | .int i => .ok (toString i).toUTF8.toList
  | .real bits => .ok (formatReal bits .general (some 15) { alternate2 := true, zeroPad := true } 0).toUTF8.toList
  | .text b e => .ok (if a.json then (e.decode b).toList else quoteBytes (e.decode b).toList)
  | .blob b _ =>
    match binaryElement b with
    | some r => do (← r).render.elim (.error malformed) .ok
    | none => .error noBlobs

/-! ## Elements as SQL values -/

/-- A code as UTF-8 bytes; the code of a malformed escape as none. -/
def codeBytes (v : Nat) : List UInt8 :=
  if v ≤ 0x7f then [UInt8.ofNat v]
  else if v ≤ 0x7ff then [UInt8.ofNat (0xc0 + v / 64), UInt8.ofNat (0x80 + v % 64)]
  else if v < 0x10000 then
    [UInt8.ofNat (0xe0 + v / 4096), UInt8.ofNat (0x80 + v / 64 % 64), UInt8.ofNat (0x80 + v % 64)]
  else if v == invalidCode then []
  else
    [UInt8.ofNat (0xf0 + v / 262144), UInt8.ofNat (0x80 + v / 4096 % 64), UInt8.ofNat (0x80 + v / 64 % 64),
     UInt8.ofNat (0x80 + v % 64)]

/-- The text a string with escapes stands for. -/
def unescapeText : Nat → List UInt8 → List UInt8
  | 0, _ => []
  | _ + 1, [] => []
  | fuel + 1, b :: rest =>
    if b == 92 then
      let (v, k) := unescapeOne ((b :: rest).length + 1) (b :: rest)
      codeBytes v ++ unescapeText fuel ((b :: rest).drop (max k 1))
    else b :: unescapeText fuel rest

/-- The 64-bit integer of the digits of a JSON integer, without its sign, as
the engine reads one: hexadecimal after `0x`, else decimal; with the code
`0` when it is one, `1` when other text follows, `2` or `3` when it is too
large. -/
def integerOfDigits (t : List UInt8) : Int × Int :=
  match t with
  | 48 :: x :: rest =>
    if x == 120 || x == 88 then
      let body := rest.dropWhile (· == 48)
      let ds := body.takeWhile isHexUnit
      let u := ds.foldl (fun u b => (u * 16 + hexValue b) % twoPow 64) 0
      let v : Int := if u ≥ twoPow 63 then Int.ofNat u - Int.ofNat (twoPow 64) else Int.ofNat u
      if ds.length > 16 then (2, v)
      else if !(body.drop ds.length).isEmpty then (1, v)
      else (0, v)
    else readIntegerUnits t false
  | _ => readIntegerUnits t false

/-- The SQL value of a JSON real: the double its text reads as. -/
def realOfText (t : List UInt8) : Except String Value :=
  let (kind, bits) := readRealUnits t 1
  if kind ≤ 0 then .error malformed else .ok (.real bits)

/-- The SQL value of a JSON integer: the 64-bit integer, or the double when
it is too large. -/
def integerOfText (t : List UInt8) : Except String Value :=
  match t with
  | [] => .error malformed
  | c :: rest =>
    let (neg, body) := if c == 45 then (true, rest) else (false, c :: rest)
    if neg && body.isEmpty then .error malformed
    else
      let (rc, v) := integerOfDigits body
      if rc == 0 then .ok (.int (if neg then (if v == minInt then minInt else -v) else v))
      else if rc == 3 && neg then .ok (.int minInt)
      else if rc == 1 then .error malformed
      else realOfText t

/-- The SQL value of an element: null, `1` or `0` for true and false, a
number, the text a string stands for, or the JSON text of an array or
object. -/
def sqlValue (e : Element) : Except String Value :=
  match e with
  | .null => .ok .null
  | .bool b => .ok (.int (if b then 1 else 0))
  | .integer t _ => integerOfText t
  | .real t _ => if t.isEmpty then .error malformed else realOfText t
  | .string c => .ok (textValue (if c.literal then c.bytes else unescapeText (c.bytes.length + 1) c.bytes))
  | e => (e.render.map textValue).elim (.error malformed) .ok

/-! ## Results -/

/-- An element as a result: its JSON text, marked; or in the binary form. -/
def result (binary : Bool) (e : Element) : Except String Marked :=
  if binary then .ok { value := .blob (ByteArray.mk e.encode.toArray) .utf8 }
  else match e.render with
    | some t => .ok { value := textValue t, json := true }
    | none => .error malformed

/-- JSON text built by a function as a result: itself, marked; or read
into the binary form. -/
def textResult (binary : Bool) (t : List UInt8) : Marked :=
  if binary then
    match readText (ByteArray.mk t.toArray) with
    | .ok (e, _) => { value := .blob (ByteArray.mk e.encode.toArray) .utf8 }
    | .error _ => { value := .null }
  else { value := textValue t, json := true }

/-- A plain SQL value as a result. -/
def plain (v : Value) : Marked := { value := v }

/-- Runs through a list, stopping at the first failure. -/
def collect {α β : Type} (f : α → Except String β) : List α → Except String (List β)
  | [] => .ok []
  | a :: as => do pure ((← f a) :: (← collect f as))

/-- Pairs up a list: first and second, third and fourth, and so on. -/
def pairs {α : Type} : List α → List (α × α)
  | a :: b :: rest => (a, b) :: pairs rest
  | _ => []

/-! ## The functions -/

/-- `json_array`: the arguments as a JSON array. -/
def arrayOf (binary : Bool) (args : List Marked) : Except String Marked := do
  let items ← collect valueText args
  pure (textResult binary ([91] ++ joinWith 44 items ++ [93]))

/-- `json_object`: the arguments, labels and values in turn, as a JSON
object; every label must be text. -/
def objectOf (binary : Bool) (args : List Marked) : Except String Marked :=
  if args.length % 2 == 1 then .error "json_object() requires an even number of arguments"
  else
    let ps := pairs args
    if ps.any fun (k, _) => !(match k.value with | .text _ _ => true | _ => false) then
      .error "json_object() labels must be TEXT"
    else do
      let members ← collect (fun (k, v) => do
        let label := (k.value.render.map ByteArray.toList).getD []
        pure (quoteBytes label ++ [58] ++ (← valueText v))) ps
      pure (textResult binary ([123] ++ joinWith 44 members ++ [125]))

/-- The steps of a path argument after its `$`; none for null, and an error
when it does not start with `$`. -/
def pathSteps (v : Value) : Except String (Option (List UInt8)) :=
  match textOf v with
  | none => .ok none
  | some (36 :: rest) => .ok (some rest)
  | some p => .error (badPathMessage p)

/-- `json_extract` with one path and more, and the operators: `ptr` for
`->` (the JSON text of what the path names), `sql` for `->>` (its SQL
value).  The operators also take a path without `$`: an integer for an
index, a name for a label, `[...]` as it is, and other text for a quoted
label. -/
inductive Extract where
  | function
  | ptr
  | sql
  deriving DecidableEq

/-- A path as the operators take it, its `$` left off. -/
def abbreviatedPath (v : Value) (p : List UInt8) : List UInt8 :=
  let isInt := match v with
    | .int _ => true
    | _ => false
  if isInt then [91] ++ p ++ [93]
  else if p.all (fun c => isAlnumUnit c || c == 95) then 46 :: p
  else if p.head? == some 91 && p.length ≥ 3 && p.getLast? == some 93 then p
  else [46, 34] ++ p ++ [34]

/-- What a path names in a document, for `json_extract` and the operators. -/
def extractOne (mode : Extract) (binary : Bool) (doc : Element) (path : Value) : Except String Marked :=
  match textOf path with
  | none => .ok (plain .null)
  | some p =>
    let steps? : Except String (List UInt8) :=
      match p with
      | 36 :: rest => .ok rest
      | _ => if mode == .function then .error (badPathMessage p) else .ok (abbreviatedPath path p)
    match steps? with
    | .error m => .error m
    | .ok steps =>
      match doc.find (steps.length + 1) steps with
      | .error .notFound => .ok (plain .null)
      | .error _ => .error (badPathMessage p)
      | .ok e =>
        match mode, e with
        | .ptr, _ => result false e
        | .sql, .array _ | .sql, .object _ =>
          (e.render.map fun t => plain (textValue t)).elim (.error malformed) .ok
        | .function, .array _ | .function, .object _ => result binary e
        | _, _ => plain <$> sqlValue e

/-- `json_extract` with several paths: a JSON array of what each names,
null for a path that names nothing; null when a path is null. -/
def extractMany (binary : Bool) (doc : Element) (paths : List Value) : Except String Marked :=
  let rec go : List Value → Except String (Option (List (List UInt8)))
    | [] => .ok (some [])
    | v :: vs =>
      match textOf v with
      | none => .ok none
      | some (36 :: steps) =>
        match doc.find (steps.length + 1) steps with
        | .ok e => do
          let t ← e.render.elim (.error malformed) .ok
          pure ((t :: ·) <$> (← go vs))
        | .error .notFound => do pure ((("null".toUTF8.toList) :: ·) <$> (← go vs))
        | .error _ => .error (badPathMessage (36 :: steps))
      | some p => .error (badPathMessage p)
  match go paths with
  | .error m => .error m
  | .ok none => .ok (plain .null)
  | .ok (some items) => .ok (textResult binary ([91] ++ joinWith 44 items ++ [93]))

/-- `json_extract(doc, path, ...)`. -/
def extract (binary : Bool) (args : List Marked) : Except String Marked :=
  match args with
  | [] | [_] => .ok (plain .null)
  | d :: paths => do
    match ← argElement d.value with
    | none => pure (plain .null)
    | some doc =>
      match paths with
      | [p] => extractOne .function binary doc p.value
      | _ => extractMany binary doc (paths.map (·.value))

/-- `->` and `->>`. -/
def arrow (mode : Extract) (args : List Marked) : Except String Marked :=
  match args with
  | [d, p] => do
    match ← argElement d.value with
    | none => pure (plain .null)
    | some doc => extractOne mode false doc p.value
  | _ => .ok (plain .null)

/-- The name an editing function has in its messages. -/
def EditKind.name : EditKind → String
  | .remove => "remove"
  | .replace => "replace"
  | .insert => "insert"
  | .set => "set"

/-- `json_insert`, `json_replace` and `json_set`: edits the document at
each path in turn, a null path passed over; a path that names nothing
(with no place to add it) changes nothing. -/
def editAll (kind : EditKind) (binary : Bool) (args : List Marked) : Except String Marked :=
  match args with
  | [] => .ok (plain .null)
  | d :: rest =>
    if rest.length % 2 == 1 then .error s!"json_{kind.name}() needs an odd number of arguments"
    else do
      match ← argElement d.value with
      | none => pure (plain .null)
      | some doc =>
        let step (doc : Element) (pv : Marked × Marked) : Except String Element := do
          match ← pathSteps pv.1.value with
          | none => pure doc
          | some steps =>
            let ins ← valueElement pv.2
            if steps.isEmpty then pure (if kind == .insert then doc else ins)
            else
              match Element.edit kind ins (steps.length + 1) steps doc with
              | .ok (some d') => pure d'
              | .ok none => pure doc
              | .error .notFound => pure doc
              | .error .badPath => .error (badPathMessage (36 :: steps))
        result binary (← (pairs rest).foldlM step doc)

/-- `json_remove(doc, path, ...)`, and `json(doc)` with no path: removes
what each path names; null when a path is null or is `$` itself. -/
def removeAll (binary : Bool) (args : List Marked) : Except String Marked :=
  match args with
  | [] => .ok (plain .null)
  | d :: paths => do
    match ← argElement d.value with
    | none => pure (plain .null)
    | some doc =>
      let rec go : Element → List Marked → Except String (Option Element)
        | doc, [] => .ok (some doc)
        | doc, p :: ps => do
          match ← pathSteps p.value with
          | none => pure none
          | some [] => pure none
          | some steps =>
            match Element.edit .remove .null (steps.length + 1) steps doc with
            | .ok (some d') => go d' ps
            | .ok none => go doc ps
            | .error .notFound => go doc ps
            | .error .badPath => .error (badPathMessage (36 :: steps))
      match ← go doc paths with
      | none => pure (plain .null)
      | some d => result binary d

/-- `json_patch(target, patch)`. -/
def patch (binary : Bool) (args : List Marked) : Except String Marked :=
  match args with
  | [t, p] => do
    match ← argElement t.value with
    | none => pure (plain .null)
    | some target =>
      match ← argElement p.value with
      | none => pure (plain .null)
      | some pe => result binary (mergePatch (pe.encode.length + 1) target pe)
  | _ => .ok (plain .null)

/-- `json_type(doc [, path])`: the name of the kind of element. -/
def typeOf (args : List Marked) : Except String Marked :=
  match args with
  | [] => .ok (plain .null)
  | d :: rest => do
    match ← argElement d.value with
    | none => pure (plain .null)
    | some doc =>
      let named : Except String (Option Element) :=
        match rest with
        | [p] => do
          match ← pathSteps p.value with
          | none => pure none
          | some steps =>
            match doc.find (steps.length + 1) steps with
            | .ok e => pure (some e)
            | .error .notFound => pure none
            | .error .badPath => .error (badPathMessage (36 :: steps))
        | _ => .ok (some doc)
      match ← named with
      | none => pure (plain .null)
      | some e => pure (plain (.ofString (typeName e.code)))

/-- `json_array_length(doc [, path])`: the number of items of an array, `0`
for anything else. -/
def arrayLength (args : List Marked) : Except String Marked :=
  match args with
  | [] => .ok (plain .null)
  | d :: rest => do
    match ← argElement d.value with
    | none => pure (plain .null)
    | some doc =>
      let named : Except String (Option Element) :=
        match rest with
        | [p] =>
          match textOf p.value with
          | none => .ok none
          | some text =>
            let steps := match text with
              | 36 :: s => s
              | _ => [64]
            match doc.find (steps.length + 1) steps with
            | .ok e => .ok (some e)
            | .error .notFound => .ok none
            | .error .badPath => .error (badPathMessage text)
        | _ => .ok (some doc)
      match ← named with
      | none => pure (plain .null)
      | some (.array items) => pure (plain (.int items.length))
      | some _ => pure (plain (.int 0))

/-- Whether bytes in the binary form hold an element whose numbers and
strings are all well formed. -/
def strictlyBinary (l : List UInt8) : Bool := firstFault (ByteArray.mk l.toArray) == 0

/-- `json_valid(x [, flags])`: flag 1 for standard JSON text, 2 for JSON5
text, 4 for a blob that looks like the binary form, 8 for one that is. -/
def valid (args : List Marked) : Except String Marked :=
  let flags : Except String Nat :=
    match args with
    | [_, f] =>
      let n := f.value.intValue
      if n < 1 || n > 15 then .error "FLAGS parameter to json_valid() must be between 1 and 15"
      else .ok (n.toNat % 16)
    | _ => .ok 1
  match flags with
  | .error m => .error m
  | .ok flags =>
    match args with
    | [] => .ok (plain .null)
    | x :: _ =>
      let ofBool (b : Bool) : Except String Marked := .ok (plain (.int (if b then 1 else 0)))
      match x.value with
      | .null => .ok (plain .null)
      | .blob b _ =>
        if flags / 4 % 4 != 0 && looksBinary b.toList then
          ofBool (flags / 4 % 2 == 1 || strictlyBinary b.toList)
        else ofBool false
      | v =>
        if flags % 4 == 0 then ofBool false
        else
          let text := (v.render.map ByteArray.toList).getD []
          if text.isEmpty then ofBool false
          else match readText (ByteArray.mk text.toArray) with
            | .ok (_, nonstandard) => ofBool (flags / 2 % 2 == 1 || !nonstandard)
            | .error _ => ofBool false

/-- `json_error_position(x)`: `0` for JSON that reads, else the place of the
character where reading failed, counted from 1. -/
def errorPosition (args : List Marked) : Except String Marked :=
  match args with
  | [x] =>
    match x.value with
    | .null => .ok (plain .null)
    | .blob b _ =>
      if looksBinary b.toList then .ok (plain (.int (firstFault b)))
      else textPosition b.toList
    | v => textPosition ((v.render.map ByteArray.toList).getD [])
  | _ => .ok (plain .null)
where
  /-- The place where reading JSON text fails. -/
  textPosition (text : List UInt8) : Except String Marked :=
    match readText (ByteArray.mk text.toArray) with
    | .ok _ => .ok (plain (.int 0))
    | .error place =>
      let before := (text.take place).takeWhile (· != 0)
      .ok (plain (.int ((before.filter fun b => !Text.isContinuation b).length + 1)))

/-- `json_quote(x)`: a value as JSON text. -/
def quote (args : List Marked) : Except String Marked :=
  match args with
  | [x] => do pure { value := textValue (← valueText x), json := true }
  | _ => .ok (plain .null)

/-- The JSON functions by name; the `jsonb` forms give the binary form. -/
def call (name : String) (args : List Marked) : Option (Except String Marked) :=
  match name with
  | "json" => some (removeAll false (args.take 1))
  | "jsonb" => some (removeAll true (args.take 1))
  | "json_remove" => some (removeAll false args)
  | "jsonb_remove" => some (removeAll true args)
  | "json_array" => some (arrayOf false args)
  | "jsonb_array" => some (arrayOf true args)
  | "json_object" => some (objectOf false args)
  | "jsonb_object" => some (objectOf true args)
  | "json_extract" => some (extract false args)
  | "jsonb_extract" => some (extract true args)
  | "->" => some (arrow .ptr args)
  | "->>" => some (arrow .sql args)
  | "json_insert" => some (editAll .insert false args)
  | "jsonb_insert" => some (editAll .insert true args)
  | "json_replace" => some (editAll .replace false args)
  | "jsonb_replace" => some (editAll .replace true args)
  | "json_set" => some (editAll .set false args)
  | "jsonb_set" => some (editAll .set true args)
  | "json_patch" => some (patch false args)
  | "jsonb_patch" => some (patch true args)
  | "json_type" => some (typeOf args)
  | "json_array_length" => some (arrayLength args)
  | "json_valid" => some (valid args)
  | "json_error_position" => some (errorPosition args)
  | "json_quote" => some (quote args)
  | _ => none

/-- Whether a name is that of a JSON function. -/
def isFunction (name : String) : Bool := (call name []).isSome

/-! ## Aggregates -/

/-- Whether a name is that of a JSON aggregate. -/
def isAggregate (name : String) : Bool :=
  name == "json_group_array" || name == "jsonb_group_array" || name == "json_group_object" ||
    name == "jsonb_group_object"

/-- An aggregate's JSON text as its result: the text itself, marked, or read
into the binary form; but with no rows, the text even in the binary form. -/
def groupResult (binary : Bool) (empty : Bool) (t : List UInt8) : Marked :=
  if empty then { value := textValue t, json := true } else textResult binary t

/-- `json_group_array(x)` over the rows of a group. -/
def groupArray (binary : Bool) (rows : List Marked) : Except String Value := do
  let items ← collect valueText rows
  pure (groupResult binary rows.isEmpty ([91] ++ joinWith 44 items ++ [93])).value

/-- `json_group_object(label, x)` over the rows of a group; a null label is
left out, leaving its colon. -/
def groupObject (binary : Bool) (rows : List (Marked × Marked)) : Except String Value := do
  let members ← collect (fun (k, v) => do
    let label := match textOf k.value with
      | some t => quoteBytes t
      | none => []
    pure (label ++ [58] ++ (← valueText v))) rows
  pure (groupResult binary rows.isEmpty ([123] ++ joinWith 44 members ++ [125])).value

/-- A JSON aggregate by name over the argument lists of a group's rows. -/
def aggregate (name : String) (rows : List (List Marked)) : Except String Value :=
  let binary := name.startsWith "jsonb"
  if name.endsWith "array" then groupArray binary (rows.map fun r => r.headD (plain .null))
  else groupObject binary (rows.map fun r => (r.headD (plain .null), r.getD 1 (plain .null)))

end Json
end Sql
end PowChain
