import PowChain.Toml.Basic

/-!
# Building the table tree

A document is read line by line into a tree.  The table named by the last
header is kept apart while its lines are read, and is put into the tree when
the next header comes or the document ends.  The rules:

* `startTable`: a header may name a new table or one that exists only
  implicitly (made on the way to a deeper header); a table defined by a
  header, one made by dotted keys, or a value of that name is a redefinition.
* `startArrayTable`: `[[name]]` adds a table to an array of tables.
* `onKeyval`: a key is set once in its table; a dotted key makes or extends
  dotted tables only, never a table defined by a header.
* On the way to a table, a value in the path cannot be extended.
-/

namespace PowChain
namespace Toml

/-- The document read so far. -/
structure Tree where
  /-- The tree without the table being filled. -/
  root : Entries := []
  /-- The entries of the table being filled: the root's until the first header. -/
  current : Entries := []
  /-- The range of its header and lines. -/
  currentSpan : Option Span := none
  /-- Its path, each key with its range; empty for the root. -/
  path : List (String × Span) := []
  /-- Whether it belongs to an array of tables. -/
  isArray : Bool := false

namespace Tree

/-- Runs `f` on the table at `path` below `entries`, with that table's dotted
flag, and puts the changed table back.  Missing tables are made implicit,
dotted when `dotted`; within an array of tables the last one is entered.
`full` and `i` name the path for messages. -/
def descend {β : Type} (dotted : Bool) (full : List String)
    (f : Bool → Entries → Except String (Entries × β)) :
    Nat → List (String × Span) → Bool → Entries → Except String (Entries × β)
  | _, [], here, entries => f here entries
  | i, (k, ksp) :: rest, _, entries =>
    match lookup k entries with
    | none => do
      let (inner, r) ← descend dotted full f (i + 1) rest dotted []
      pure (entries ++ [(k, ksp, .table inner true dotted none)], r)
    | some (_, .value v _) => throw (extendWrongType (full.take (i + 1)) v.typeName)
    | some (ksp', .tables ts) =>
      match ts.getLast? with
      | some (.table inner imp d sp) => do
        let (inner', r) ← descend dotted full f (i + 1) rest d inner
        pure (replace k (ksp', .tables (ts.dropLast ++ [.table inner' imp d sp])) entries, r)
      | _ => throw (duplicateKey k none)
    | some (ksp', .table inner imp d sp) =>
      if dotted && !imp then throw (duplicateKey k none)
      else do
        let (inner', r) ← descend dotted full f (i + 1) rest d inner
        pure (replace k (ksp', .table inner' imp d sp) entries, r)

/-- A path split into its last key and the path before it. -/
def splitLast (path : List (String × Span)) : List (String × Span) × (String × Span) :=
  match path.reverse with
  | [] => ([], ("", ⟨0, 0⟩))
  | k :: rev => (rev.reverse, k)

/-- The names of a path. -/
def names (path : List (String × Span)) : List String := path.map (·.1)

/-- Puts the table being filled into the tree. -/
def finalize (t : Tree) : Except String Entries :=
  if t.path.isEmpty then pure t.current
  else
    let (parent, (key, ksp)) := splitLast t.path
    let table := Item.table t.current false false t.currentSpan
    let place (entries : Entries) : Except String (Entries × Unit) :=
      if t.isArray then
        match lookup key entries with
        | none => pure (entries ++ [(key, ksp, .tables [table])], ())
        | some (ksp', .tables ts) => pure (replace key (ksp', .tables (ts ++ [table])) entries, ())
        | some _ => throw (duplicateKey key (some (names parent)))
      else
        match lookup key entries with
        | none => pure (entries ++ [(key, ksp, table)], ())
        | some (ksp', .table _ true _ _) => pure (replace key (ksp', table) entries, ())
        | some _ => throw (duplicateKey key (some (names parent)))
    Prod.fst <$> descend false (names parent) (fun _ e => place e) 0 parent false t.root

/-- Starts the table of a `[path]` header. -/
def startTable (root : Entries) (path : List (String × Span)) (span : Span) : Except String Tree := do
  let (parent, (key, _)) := splitLast path
  let (root, current) ← descend false (names parent) (fun _ entries =>
      match lookup key entries with
      | none => pure (entries, [])
      | some (_, .table inner true false _) => pure (entries, inner)
      | some _ => throw (duplicateKey key (some (names parent))))
    0 parent false root
  pure { root, current, currentSpan := some span, path, isArray := false }

/-- Starts a table of a `[[path]]` header. -/
def startArrayTable (root : Entries) (path : List (String × Span)) (span : Span) : Except String Tree := do
  let (parent, (key, ksp)) := splitLast path
  let (root, ()) ← descend false (names parent) (fun _ entries =>
      match lookup key entries with
      | none => pure (entries ++ [(key, ksp, .tables [])], ())
      | some (_, .tables _) => pure (entries, ())
      | some _ => throw (duplicateKey key (some (names parent))))
    0 parent false root
  pure { root, currentSpan := some span, path, isArray := true }

/-- A header line: the table being filled is put into the tree, and the named
one started. -/
def onHeader (t : Tree) (path : List (String × Span)) (isArray : Bool) (span : Span) :
    Except String Tree := do
  let root ← t.finalize
  if isArray then startArrayTable root path span else startTable root path span

/-- A `key = value` line; `pathPrefix` holds the key's parts before its last. -/
def onKeyval (t : Tree) (pathPrefix : List (String × Span)) (key : String × Span) (v : Value)
    (sp : Span) : Except String Tree := do
  let (current, ()) ← descend true (names pathPrefix) (fun here entries =>
      if here == pathPrefix.isEmpty then throw (duplicateKey key.1 none)
      else match lookup key.1 entries with
        | some _ => throw (duplicateKey key.1 (some (names t.path)))
        | none => pure (entries ++ [(key.1, key.2, .value v sp)], ()))
    0 pathPrefix false t.current
  let currentSpan := t.currentSpan.map fun s => ⟨s.start, sp.stop⟩
  pure { t with current, currentSpan }

end Tree
end Toml
end PowChain
