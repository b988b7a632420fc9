import PowChain.PageFile.Image
import PowChain.Text.Utf8

/-!
# The schema of a database

The table rooted at page 1 lists every object of the database, one row each:
its kind (`table`, `index`, ...), its name, the table it belongs to, its root
page and the text of the statement that made it, null for the indexes a
table makes for its own `PRIMARY KEY` and `UNIQUE` constraints.  Names are
compared without regard to ASCII case.

Texts are kept in the database's encoding, UTF-8 or UTF-16 of either byte
order; bytes that encode nothing read as U+FFFD.
-/

namespace PowChain
namespace PageFile

open Sql (Value)

/-! ## Texts in the database's encoding -/

/-- The code units of UTF-16 bytes. -/
def units16 (b : ByteArray) (bigEndian : Bool) : List Nat :=
  (List.range (b.size / 2)).map fun i =>
    let x := (Bytes.getD b (2 * i)).toNat
    let y := (Bytes.getD b (2 * i + 1)).toNat
    if bigEndian then x * 256 + y else y * 256 + x

/-- The characters of UTF-16 code units, a lone surrogate read as U+FFFD. -/
def decode16 : List Nat → List Char
  | [] => []
  | [u] => [if 0xD800 ≤ u && u < 0xE000 then '�' else Char.ofNat u]
  | u :: v :: rest =>
    if 0xD800 ≤ u && u < 0xDC00 && 0xDC00 ≤ v && v < 0xE000 then
      Char.ofNat (0x10000 + (u - 0xD800) * 1024 + (v - 0xDC00)) :: decode16 rest
    else (if 0xD800 ≤ u && u < 0xE000 then '�' else Char.ofNat u) :: decode16 (v :: rest)

/-- The UTF-16 bytes of a text. -/
def encode16 (s : String) (bigEndian : Bool) : ByteArray :=
  let unit (u : Nat) : List UInt8 :=
    if bigEndian then [(u / 256).toUInt8, (u % 256).toUInt8] else [(u % 256).toUInt8, (u / 256).toUInt8]
  Bytes.ofList (s.toList.flatMap fun c =>
    let n := c.toNat
    if n < 0x10000 then unit n
    else unit (0xD800 + (n - 0x10000) / 1024) ++ unit (0xDC00 + (n - 0x10000) % 1024))

/-- A text kept in encoding `enc`. -/
def textOf (enc : Nat) (b : ByteArray) : String :=
  if enc == 2 then String.ofList (decode16 (units16 b false))
  else if enc == 3 then String.ofList (decode16 (units16 b true))
  else Utf8.lossy b

/-- The bytes of a text in encoding `enc`. -/
def bytesOf (enc : Nat) (s : String) : ByteArray :=
  if enc == 2 then encode16 s false else if enc == 3 then encode16 s true else s.toUTF8


/-! ## Schema rows -/

/-- One object of the database. -/
structure SchemaEntry where
  rowid : Int
  kind : String
  name : String
  tableName : String
  rootPage : Nat
  sql : Option String

/-- The object a schema row describes. -/
def SchemaEntry.ofRow (enc : Nat) (rowid : Int) (vs : List Value) : SchemaEntry :=
  let text (i : Nat) : String := match column vs i with
    | .text b _ => textOf enc b
    | .blob b _ => textOf enc b
    | _ => ""
  let root := match column vs 3 with
    | .int n => n.toNat
    | _ => 0
  let sql := match column vs 4 with
    | .text b _ => some (textOf enc b)
    | _ => none
  { rowid, kind := text 0, name := text 1, tableName := text 2, rootPage := root, sql }

/-- The schema row of an object. -/
def SchemaEntry.record (enc : Nat) (e : SchemaEntry) : ByteArray :=
  let text (s : String) : Value := .text (bytesOf enc s) (Sql.Encoding.ofCode enc)
  encodeRecord [text e.kind, text e.name, text e.tableName, .int e.rootPage,
    match e.sql with
    | some s => text s
    | none => .null]

/-- Whether a schema row's statement is a `CREATE` statement. -/
def SchemaEntry.creates (e : SchemaEntry) : Bool :=
  match e.sql with
  | some s => (s.take 2).toString.toLower == "cr"
  | none => false

/-- The objects of a database, in rowid order.  A schema format above 4 is
not read.  A row must hold a `CREATE` statement, or else no statement and a
root page, as the index a table made for a key does; any other row is
malformed. -/
def Image.schema (img : Image) : Except Fault (List SchemaEntry) := do
  if img.schemaFormat > 4 then throw .unsupportedFormat
  let rows ← img.tableRows 1
  rows.mapM fun (rowid, payload) =>
    match decodeRecord (Sql.Encoding.ofCode img.textEncoding) payload with
    | some vs =>
      let e := SchemaEntry.ofRow img.textEncoding rowid vs
      let rooted := match column vs 3 with
        | .null => false
        | _ => true
      let blank := (e.sql.getD "").isEmpty
      if e.creates || (rooted && blank) then pure e else throw (.malformedSchema e.name)
    | none => throw .malformed

end PageFile
end PowChain
