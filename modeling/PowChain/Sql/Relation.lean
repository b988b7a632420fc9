import PowChain.Sql.Catalog
import PowChain.Sql.Syntax

/-!
# Relations: the rows a query gives

A query's result is a relation: its columns, each with a name, an affinity
and a collation, and its rows in order.  This module holds what a query does
to whole lists of rows.

* `SortTerm.compare` orders values by a collation and a direction, with
  nulls first or last; `compareBy` orders rows term by term, and sorting is
  stable.
* `dedupe` leaves out repeated rows, the first of equal ones kept.
* `combineRows` is a set operation of a compound query without `ORDER BY`:
  each side goes into a sorted set in which a row equal to one already
  there takes its place, and the result comes out in ascending order
  (`UNION ALL` alone keeps both sides as they are).
* `mergeRows` is a set operation of a compound query with `ORDER BY`: both
  sides come sorted and are merged; a row equal to the one written just
  before it is left out, except under `UNION ALL`.
* `uniqueNames` gives the columns of a subquery distinct names.
-/

namespace PowChain
namespace Sql

/-- A column as a scope shows it. -/
structure ColumnInfo where
  name : String
  affinity : Option Affinity
  collation : Collation

/-- The result of a query: its columns and rows. -/
structure Relation where
  columns : List ColumnInfo
  rows : List (Array Value)

/-- How one term of a sort orders values: by a collation, in a direction,
with nulls first or last (first exactly when ascending, unless told). -/
structure SortTerm where
  collation : Collation := .binary
  descending : Bool := false
  nullsFirst : Bool := !descending

/-- Compares two values under a sort term. -/
def SortTerm.compare (t : SortTerm) (a b : Value) : Ordering :=
  match a, b with
  | .null, .null => .eq
  | .null, _ => if t.nullsFirst then .lt else .gt
  | _, .null => if t.nullsFirst then .gt else .lt
  | _, _ =>
    let o := Value.compareWith t.collation a b
    if t.descending then o.swap else o

/-- Compares two lists of values term by term. -/
def compareBy : List SortTerm → List Value → List Value → Ordering
  | t :: ts, a :: as, b :: bs =>
    match t.compare a b with
    | .eq => compareBy ts as bs
    | o => o
  | _, _, _ => .eq

/-- Ascending terms of the given collations, one for each column. -/
def ascendingTerms (colls : List Collation) : List SortTerm :=
  colls.map fun c => { collation := c }

/-- Whether two rows are equal column by column under the collations. -/
def sameRow (colls : List Collation) (a b : Array Value) : Bool :=
  compareBy (ascendingTerms colls) a.toList b.toList == .eq

/-- Rows without repeats, the first of equal ones kept. -/
def dedupe (colls : List Collation) (rows : List (Array Value)) : List (Array Value) :=
  rows.foldl (fun kept r => if kept.any (sameRow colls r) then kept else kept ++ [r]) []

/-- Puts a row into rows sorted in ascending order; a row equal to one
there takes its place. -/
def insertSorted (terms : List SortTerm) (r : Array Value) : List (Array Value) → List (Array Value)
  | [] => [r]
  | x :: xs =>
    match compareBy terms r.toList x.toList with
    | .lt => r :: x :: xs
    | .eq => r :: xs
    | .gt => x :: insertSorted terms r xs

/-- Rows as a sorted set: in ascending order, the last of equal ones kept. -/
def sortedSet (terms : List SortTerm) (rows : List (Array Value)) : List (Array Value) :=
  rows.foldl (fun s r => insertSorted terms r s) []

/-- The rows of a set operation of a compound query without `ORDER BY`,
its columns compared in ascending order under `terms`. -/
def combineRows (op : SetOp) (terms : List SortTerm) (left right : List (Array Value)) :
    List (Array Value) :=
  let same (a b : Array Value) : Bool := compareBy terms a.toList b.toList == .eq
  match op with
  | .unionAll => left ++ right
  | .union => right.foldl (fun s r => insertSorted terms r s) (sortedSet terms left)
  | .intersect =>
    let r := sortedSet terms right
    (sortedSet terms left).filter fun x => r.any (same x)
  | .except => (sortedSet terms left).filter fun x => !right.any (same x)

/-- One step of merging two sorted sides: the row written, if any, and what
is left of both sides; `none` when the merge is over.  On equal rows
`UNION ALL` and `INTERSECT` write the left one, `UNION` passes over the
left one to write the right one later, and `EXCEPT` drops it. -/
def mergeStep (op : SetOp) (order : Array Value → Array Value → Ordering) :
    List (Array Value) → List (Array Value) →
    Option (Option (Array Value) × List (Array Value) × List (Array Value))
  | [], [] => none
  | a :: as, [] => if op == .intersect then none else some (some a, as, [])
  | [], b :: bs => if op == .union || op == .unionAll then some (some b, [], bs) else none
  | a :: as, b :: bs =>
    match order a b with
    | .lt => some (if op == .intersect then none else some a, as, b :: bs)
    | .eq => some (if op == .unionAll || op == .intersect then some a else none, as, b :: bs)
    | .gt => some (if op == .union || op == .unionAll then some b else none, a :: as, bs)

/-- Merges two sorted sides of a set operation; but under `UNION ALL` a row
`same` as the one written before it is left out. -/
def mergeRows (op : SetOp) (order : Array Value → Array Value → Ordering)
    (same : Array Value → Array Value → Bool) :
    Nat → List (Array Value) → List (Array Value) → Option (Array Value) → List (Array Value)
  | 0, _, _, _ => []
  | fuel + 1, as, bs, prev =>
    match mergeStep op order as bs with
    | none => []
    | some (none, as', bs') => mergeRows op order same fuel as' bs' prev
    | some (some r, as', bs') =>
      if op != .unionAll && (prev.map (same · r)).getD false then
        mergeRows op order same fuel as' bs' prev
      else r :: mergeRows op order same fuel as' bs' (some r)

/-- The position of the last character of a name, counted from `j` down,
that is not a digit, or `0`. -/
def lastNonDigit (cs : List Char) : Nat → Nat
  | 0 => 0
  | j + 1 => if (cs.getD (j + 1) ' ').isDigit then lastNonDigit cs j else j + 1

/-- A name without the `:n` that `uniqueNames` may have put after it. -/
def baseName (n : String) : String :=
  let cs := n.toList
  if cs.isEmpty then n
  else
    let j := lastNonDigit cs (cs.length - 1)
    if cs.getD j ' ' == ':' then String.ofList (cs.take j) else n

/-- A name that none of `taken` has, without regard to case: the name
itself, else its base with `:1`, `:2`, ... after it. -/
def freshName (taken : List String) : Nat → String → Nat → String
  | 0, n, _ => n
  | fuel + 1, n, count =>
    if taken.any (sameName · n) then freshName taken fuel (baseName n ++ ":" ++ toString (count + 1)) (count + 1)
    else n

/-- The names of a subquery's columns made distinct, from the left. -/
def uniqueNames (names : List String) : List String :=
  names.foldl (fun acc n => acc ++ [freshName acc (acc.length + 1) n 0]) []

/-- A relation whose columns take the given names, or else distinct ones. -/
def Relation.named (rel : Relation) (names : Option (List String)) : Relation :=
  let ns := names.getD (uniqueNames (rel.columns.map (·.name)))
  { rel with columns := (rel.columns.zip ns).map fun (c, n) => { c with name := n } }

end Sql
end PowChain
