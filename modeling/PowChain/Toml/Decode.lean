import PowChain.Toml.Basic
import PowChain.Text.Escape
import PowChain.Decimal.Shortest

/-!
# Reading typed settings from a document

Typed reading walks the tree and takes from each entry what a setting needs:
a string, a flag, a number in a range, a list, a record of named fields or one
of a few names.  A mismatch is reported at the range of the value found, as
`invalid type: <what was found>, expected <what was wanted>`, or
`invalid value: …` for a number out of range.

Records ignore entries they do not know, and keep their defaults for fields
that are absent.  A record may also be written as an array, whose elements
fill the fields in order.  A date reads as a map with no field of any record.
-/

namespace PowChain
namespace Toml

/-- A setting read from a document, or the problem and where it lies. -/
abbrev Decoded (α : Type) := Except Fault α

/-- How a value is named when it is not what was wanted. -/
def Value.unexpected : Value → String
  | .str s => "string " ++ Text.quoteString s
  | .int i => s!"integer `{i}`"
  | .float b => "floating point `" ++ Shortest.renderPlain b ++ "`"
  | .bool b => s!"boolean `{b}`"
  | .datetime _ => "map"
  | .array _ => "sequence"
  | .inline .. => "map"

namespace Item

/-- The range of a table, if it has one. -/
def tableSpan? : Item → Option Span
  | .table _ _ _ sp => sp
  | _ => none

/-- The range of an item: a value's text, a table's header and lines, or an
array of tables from its first to its last table. -/
def span? : Item → Option Span
  | .value _ sp => some sp
  | .table _ _ _ sp => sp
  | .tables ts =>
    match ts.head?.bind tableSpan?, ts.getLast?.bind tableSpan? with
    | some a, some b => some ⟨a.start, b.stop⟩
    | _, _ => none

/-- How an item is named when it is not what was wanted. -/
def unexpected : Item → String
  | .value v _ => v.unexpected
  | .table .. => "map"
  | .tables _ => "sequence"

/-- The elements of an array or an array of tables. -/
def elements? : Item → Option (List Item)
  | .value (.array xs) _ => some (xs.map fun (v, sp) => .value v sp)
  | .tables ts => some ts
  | _ => none

/-- The entries of a table or an inline table; a date has none a record takes. -/
def entries? : Item → Option Entries
  | .table es .. => some es
  | .value (.inline es _) _ => some (es.map fun (k, ksp, v, sp) => (k, ksp, .value v sp))
  | .value (.datetime _) _ => some []
  | _ => none

end Item

namespace Decode

def invalidType (it : Item) (expected : String) : Fault :=
  let found := it.unexpected
  { message := s!"invalid type: {found}, expected {expected}", span := it.span? }

def string (expected : String) (it : Item) : Decoded String :=
  match it with
  | .value (.str s) _ => pure s
  | _ => throw (invalidType it expected)

def bool (it : Item) : Decoded Bool :=
  match it with
  | .value (.bool b) _ => pure b
  | _ => throw (invalidType it "a boolean")

/-- A whole number from zero to `max`. -/
def natUpTo (expected : String) (max : Nat) (it : Item) : Decoded Nat :=
  match it with
  | .value (.int i) sp =>
    if 0 ≤ i && i.toNat ≤ max then pure i.toNat
    else throw { message := s!"invalid value: integer `{i}`, expected {expected}", span := some sp }
  | _ => throw (invalidType it expected)

def list {α : Type} (f : Item → Decoded α) (it : Item) : Decoded (List α) :=
  match it.elements? with
  | some xs => xs.mapM f
  | none => throw (invalidType it "a sequence")

/-- A field of a record: its name and how an item sets it. -/
structure Field (α : Type) where
  name : String
  set : α → Item → Decoded α

/-- A problem found in the entry of a key points at the entry's value, or at
the key when the value has no range of its own (a table made by dotted keys
or on the way to a header). -/
def within (keySpan : Span) (it : Item) (f : Fault) : Fault :=
  match f.span with
  | some _ => f
  | none => { f with span := it.span?.getD keySpan }

/-- A record named `name`, starting from its defaults. -/
def record {α : Type} (name : String) (fields : List (Field α)) (init : α) (it : Item) : Decoded α :=
  match it.entries? with
  | some es =>
    es.foldlM (fun acc (k, ksp, v) =>
      match fields.find? (·.name == k) with
      | some f => (f.set acc v).mapError (within ksp v)
      | none => pure acc) init
  | none =>
    match it.elements? with
    | some xs => (fields.zip xs).foldlM (fun acc (f, v) => f.set acc v) init
    | none => throw (invalidType it ("struct " ++ name))

/-- The list of names a choice accepts, as messages give it. -/
def oneOf (names : List String) : String :=
  match names with
  | [a] => "`" ++ a ++ "`"
  | [a, b] => "`" ++ a ++ "` or `" ++ b ++ "`"
  | _ => "one of " ++ ", ".intercalate (names.map fun n => "`" ++ n ++ "`")

/-- A choice written with its name as the key of a one-entry table must have
an empty body. -/
def emptyBody (it : Item) : Decoded Unit :=
  match it with
  | .tables ts => if ts.isEmpty then pure () else throw { message := "expected empty array", span := it.span? }
  | .value (.array xs) sp => if xs.isEmpty then pure () else throw { message := "expected empty table", span := some sp }
  | .table es _ _ sp => if es.isEmpty then pure () else throw { message := "expected empty table", span := sp }
  | .value (.inline es _) sp => if es.isEmpty then pure () else throw { message := "expected empty table", span := some sp }
  | .value v sp => throw { message := "expected table, found " ++ v.typeName, span := some sp }

/-- One of the named choices, written as its name or as a table whose one key
is its name; an unknown name is shown at that key. -/
def choice {α : Type} (choices : List (String × α)) (it : Item) : Decoded α :=
  let pick (k : String) (sp : Option Span) : Decoded α :=
    match lookup k choices with
    | some a => pure a
    | none =>
      throw { message := "unknown variant `" ++ k ++ "`, expected " ++ oneOf (choices.map (·.1)), span := sp }
  let single (sp : Option Span) : Entries → Decoded α
    | [] => throw { message := "wanted exactly 1 element, found 0 elements", span := sp }
    | [(k, ksp, v)] => do
      let a ← pick k (some ksp)
      emptyBody v
      pure a
    | _ => throw { message := "wanted exactly 1 element, more than 1 element", span := sp }
  match it with
  | .value (.str s) sp => pick s (some sp)
  | .value (.inline es _) sp => single (some sp) (es.map fun (k, ksp, v, vsp) => (k, ksp, .value v vsp))
  | .table es _ _ sp => single sp es
  | _ => throw { message := "wanted string or table", span := it.span? }

end Decode
end Toml
end PowChain
