import PowChain.Decimal.Shortest
import PowChain.Text.Escape

/-!
# TOML documents

A TOML document is a tree of tables.  Values carry the byte range of their
text, so that a problem found while reading a value can point at it.  Tables
remember how they came to be: defined by a header, created on the way to a
deeper header (implicit), or created by a dotted key; these decide which
redefinitions are allowed.

A problem is shown with the line it is on: a heading with the line and
column (counted in characters, from one), the line itself behind a gutter of
the line number's width, a row of carets under the offending text (at least
one, at most to the end of the line), and the message.
-/

namespace PowChain
namespace Toml

/-- A byte range of the text. -/
structure Span where
  start : Nat
  stop : Nat
  deriving DecidableEq, Repr, Inhabited

/-- A value. -/
inductive Value where
  | str (s : String)
  | int (i : Int)
  | float (bits : UInt64)
  | bool (b : Bool)
  | datetime (text : String)
  | array (items : List (Value × Span))
  /-- An inline table: its entries in order (each with the range of its key
  and of its value), and whether it was made by a dotted key (and so may be
  extended by one). -/
  | inline (entries : List (String × Span × Value × Span)) (dotted : Bool)
  deriving Inhabited

namespace Value

/-- The name of a value's type, as errors show it. -/
def typeName : Value → String
  | .str _ => "string"
  | .int _ => "integer"
  | .float _ => "float"
  | .bool _ => "boolean"
  | .datetime _ => "datetime"
  | .array _ => "array"
  | .inline .. => "inline table"

end Value

/-- An entry of a table. -/
inductive Item where
  | value (v : Value) (span : Span)
  /-- A table: entries in order (each with the range of the key that first
  named it), whether it is implicit, whether it was made by a dotted key, and
  the range of its header. -/
  | table (entries : List (String × Span × Item)) (implicit dotted : Bool) (span : Option Span)
  /-- An array of tables, each a `table`. -/
  | tables (ts : List Item)
  deriving Inhabited

/-- Entries keyed by name, in order, each with the range of its key. -/
abbrev Entries := List (String × Span × Item)

def lookup {β : Type} (k : String) (l : List (String × β)) : Option β := (l.find? (·.1 == k)).map (·.2)

/-- Replaces the entry of `k`, keeping its place. -/
def replace {β : Type} (k : String) (v : β) (l : List (String × β)) : List (String × β) :=
  l.map fun e => if e.1 == k then (k, v) else e

/-- A problem with a document: its message and the range it points at, if any.
A fault that `halts` is no problem of the document but a broken invariant met
while reading it, which stops the reader. -/
structure Fault where
  message : String
  span : Option Span := none
  halts : Bool := false
  deriving Inhabited

/-- The message of a redefined key, naming the table it is in. -/
def duplicateKey (key : String) (table : Option (List String)) : String :=
  match table with
  | none => s!"duplicate key `{key}`"
  | some [] => s!"duplicate key `{key}` in document root"
  | some path =>
    let name := ".".intercalate path
    s!"duplicate key `{key}` in table `{name}`"

def extendWrongType (path : List String) (actual : String) : String :=
  let name := ".".intercalate path
  s!"dotted key `{name}` attempted to extend non-table type ({actual})"

/-- Line and column (both from zero, the column in characters) of a byte
offset. -/
def position (text : ByteArray) (index : Nat) : Nat × Nat :=
  if text.size == 0 then (0, index)
  else
    let safe := min index (text.size - 1)
    let extra := index - safe
    let before := (text.extract 0 safe).toList
    let lineStart := before.length - (before.reverse.takeWhile (· != 10)).length
    let line := (before.take lineStart).count 10
    let piece := text.extract lineStart (safe + 1)
    let column := match String.fromUTF8? piece with
      | some s => s.length - 1
      | none => safe - lineStart
    (line, column + extra)

/-- The full report of a fault in `text`. -/
def Fault.render (f : Fault) (text : String) : String :=
  match f.span with
  | none => f.message ++ "\n"
  | some sp =>
    let raw := text.toUTF8
    let (line, column) := position raw sp.start
    let lineNum := line + 1
    let gutter := (toString lineNum).length
    let content := ((text.splitOn "\n").drop line).headD ""
    let width := min (sp.stop - sp.start) (content.utf8ByteSize - column)
    let pad (n : Nat) := String.ofList (List.replicate n ' ')
    s!"TOML parse error at line {lineNum}, column {column + 1}\n" ++
      pad (gutter + 1) ++ "|\n" ++
      s!"{lineNum} | " ++ content ++ "\n" ++
      pad (gutter + 1) ++ "|" ++ pad (column + 1) ++ "^" ++
      String.ofList (List.replicate (width - 1) '^') ++ "\n" ++
      f.message ++ "\n"

end Toml
end PowChain
