import PowChain.Toml.Parse
import PowChain.Toml.Tree

/-!
# Reading a whole document

A document is a sequence of lines, each blank, a comment, a table header or a
`key = value` pair, any of them led by blanks.  A header or pair is entered
into the tree as soon as it is read, so a redefinition is reported at the
start of its line; a problem found when the last table is put away at the end
has no place in the text.
-/

namespace PowChain
namespace Toml
namespace Reader

/-- A `[path]` or `[[path]]` header with the rest of its line: the path,
whether it names an array of tables, and the range of the bracketed part. -/
def header : P (List (String × Span) × Bool × Span) := do
  let start ← get
  let isArray := (← peekAt 1) == some 91
  advance (if isArray then 2 else 1)
  let path ← cut (within "table header" key)
  let close := if isArray then "]]" else "]"
  let b ← read
  let here ← get
  if b.extract here (here + close.length) == close.toUTF8 then advance close.length
  else hard ("invalid table header\nexpected `.`, `" ++ close ++ "`")
  let stop ← get
  lineTrailing "invalid table header\nexpected newline, `#`"
  pure (path, isArray, ⟨start, stop⟩)

/-- A `key = value` line, from its key: the key's parts and the value. -/
def keyval : P (List (String × Span) × Value × Span) := do
  let path ← cut key
  if (← peek) != some 61 then hard "expected `.`, `=`"
  advance 1
  ws
  let (v, sp) ← cut (value depthLimit)
  lineTrailing "expected newline, `#`"
  pure (path, v, sp)

/-- Enters the lines of the document into the tree. -/
def lines : Nat → Tree → P Tree
  | 0, t => pure t
  | fuel + 1, t => do
    ws
    let start ← get
    match ← peek with
    | none => pure t
    | some 35 =>
      comment
      if !(← newline?) && (← peek).isSome then hard ""
      lines fuel t
    | some 91 =>
      let (path, isArray, span) ← header
      match t.onHeader path isArray span with
      | .ok t => lines fuel t
      | .error msg => failAt true start ("invalid table header\n" ++ msg)
    | some 10 | some 13 =>
      if ← newline? then lines fuel t else hard ""
    | some _ =>
      let (path, v, sp) ← keyval
      let (pathPrefix, k) := Tree.splitLast path
      match t.onKeyval pathPrefix k v sp with
      | .ok t => lines fuel t
      | .error msg => failAt true start msg

/-- A byte order mark, skipped at the start. -/
def byteOrderMark : ByteArray := ByteArray.mk #[0xef, 0xbb, 0xbf]

def document : P Entries := do
  if (← read).extract 0 3 == byteOrderMark then advance 3
  let t ← lines (← budget) {}
  match t.finalize with
  | .ok root => pure root
  | .error msg => throw { fault := { message := msg }, hard := true }

end Reader

/-- The tables of a document, or the first problem in it. -/
def parse (text : String) : Except Fault Entries :=
  match (Id.run ((Reader.document.run text.toUTF8).run.run 0)).1 with
  | .ok root => .ok root
  | .error e => .error e.fault

end Toml
end PowChain
