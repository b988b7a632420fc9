import PowChain.Sql.Eval

/-!
# Foreign keys

A foreign key ties some columns of a child table to a key of a parent
table: a child row whose referring columns are all non-null must match a
parent row.  Keys are enforced, as a database opened with the library's
defaults does.

The parent key is found as the library finds it: a single referring column
that names the parent's `INTEGER PRIMARY KEY`, or names nothing while the
parent has one, refers to the rowid; otherwise the key is a unique index of
the parent, without a filter, whose columns are exactly the parent columns
named (or the primary key, when none is named), each under its column's
own collation.  A parent with no such key is a mismatch.

A child's values are looked up in the parent under the parent columns'
affinities and collations; the rowid takes only values that are integers.
Child rows are found by comparing their columns with the parent's values,
under the affinity the two columns' affinities make and the parent's
collation.
-/

namespace PowChain
namespace Sql

/-- A column of a parent key: the parent's column (none for the rowid), the
collation the key looks values up with, the column's own collation, which
child rows are found with, and its affinity. -/
structure ParentColumn where
  column : Option Nat
  keyCollation : Collation
  collation : Collation
  affinity : Affinity

/-- The parent key a foreign key refers to: each referring column paired
with the parent column it matches, in the order the parent key compares
them; none when the parent has no unique key on those columns. -/
def ForeignKey.parentKey (fk : ForeignKey) (parent : Table) : Option (List (Nat × ParentColumn)) :=
  let n := fk.columns.length
  let rowid : ParentColumn :=
    { column := none, keyCollation := .binary, collation := .binary, affinity := .integer }
  let byRowid : Option (List (Nat × ParentColumn)) :=
    match fk.columns, parent.rowidAlias with
    | [c], some a =>
      match fk.parentColumns with
      | [] => some [(c, rowid)]
      | [p] => if (((parent.columns[a]?).map fun col => sameName col.name p).getD false) then some [(c, rowid)] else none
      | _ => none
    | _, _ => none
  let ofColumn (j : Nat) (coll : Collation) : ParentColumn :=
    let col := parent.columns[j]?
    { column := some j, keyCollation := coll, collation := (col.map (·.collation)).getD .binary,
      affinity := (col.map (·.affinity)).getD .blob }
  let byIndex (idx : Index) : Option (List (Nat × ParentColumn)) :=
    let cols := idx.parts.filterMap fun p => match p.term with
      | .column j => some (j, p.collation)
      | .expr _ => none
    if !idx.unique || idx.filter.isSome || idx.parts.length != n || cols.length != n then none
    else if fk.parentColumns.isEmpty then
      if idx.primary then some ((fk.columns.zip cols).map fun (c, (j, coll)) => (c, ofColumn j coll)) else none
    else if fk.parentColumns.length != n then none
    else
      let paired := cols.filterMap fun (j, coll) =>
        let own := ((parent.columns[j]?).map (·.collation)).getD .binary
        if coll != own then none
        else
          let name := ((parent.columns[j]?).map (·.name)).getD ""
          match fk.parentColumns.findIdx? (sameName · name) with
          | some k => (fk.columns[k]?).map fun c => (c, ofColumn j coll)
          | none => none
      if paired.length == n then some paired else none
  byRowid.orElse fun _ => parent.indexes.reverse.findSome? byIndex

/-- Whether a parent row has the values given for its key. -/
def parentMatches (key : List (Nat × ParentColumn)) (parentRow : Row) (vals : List Value) : Bool :=
  (key.zip vals).all fun ((_, pc), v) =>
    match pc.column with
    | none =>
      match v.withAffinity .integer with
      | .int i => parentRow.rowid == i
      | _ => false
    | some j =>
      let pv := parentRow.values.getD j .null
      !pv.isNull && Value.compareWith pc.keyCollation pv (v.withAffinity pc.affinity) == .eq

/-- The values a child row refers with, in the order of the parent key;
none when one of them is null. -/
def referringValues (key : List (Nat × ParentColumn)) (childRow : Row) : Option (List Value) :=
  let vs := key.map fun (c, _) => childRow.values.getD c .null
  if vs.any Value.isNull then none else some vs

/-- The values of a parent row's key, in the order of the parent key. -/
def keyValues (key : List (Nat × ParentColumn)) (parentRow : Row) : List Value :=
  key.map fun (_, pc) => match pc.column with
    | none => .int parentRow.rowid
    | some j => parentRow.values.getD j .null

/-- Whether a child row refers to a parent key's values. -/
def childMatches (child : Table) (key : List (Nat × ParentColumn)) (vals : List Value) (childRow : Row) : Bool :=
  (key.zip vals).all fun ((c, pc), pv) =>
    let cv := childRow.values.getD c .null
    let aff := compareAffinity (some pc.affinity) ((child.columns[c]?).map (·.affinity))
    !cv.isNull && !pv.isNull &&
      comparison aff pc.collation pv cv == some .eq

/-- Whether a row added to a table refers to itself under a foreign key of
the table to itself: its referring values are, as stored, the values of its
own parent key, the rowid taking the integer a value reads as. -/
def refersToItself (key : List (Nat × ParentColumn)) (r : Row) : Bool :=
  key.all fun (c, pc) =>
    let cv := r.values.getD c .null
    match pc.column with
    | none =>
      match cv.withAffinity .integer with
      | .int i => i == r.rowid
      | _ => false
    | some j =>
      let pv := r.values.getD j .null
      !pv.isNull && Value.compareWith .binary cv pv == .eq

/-- The name of a parent key's column: the rowid goes by the name of the
column that stands for it. -/
def ParentColumn.name (pc : ParentColumn) (parent : Table) : String :=
  let j := pc.column.orElse fun _ => parent.rowidAlias
  ((j.bind fun j => parent.columns[j]?).map (·.name)).getD "rowid"

/-- Whether a column belongs to a table's primary key. -/
def Table.isKeyColumn (t : Table) (j : Nat) : Bool :=
  t.rowidAlias == some j || t.keyColumns.contains j

/-- Whether an update of the columns `changed` (and of the rowid, when
`rowidChanged`) changes the columns a foreign key of the table refers with. -/
def ForeignKey.childChanged (fk : ForeignKey) (t : Table) (changed : Nat → Bool) (rowidChanged : Bool) : Bool :=
  fk.columns.any fun c => changed c || (t.rowidAlias == some c && rowidChanged)

/-- Whether an update of the columns `changed` of a parent table changes the
key a foreign key refers to: a column the key names, or, when it names none,
a column of the parent's primary key. -/
def ForeignKey.parentChanged (fk : ForeignKey) (parent : Table) (changed : Nat → Bool) (rowidChanged : Bool) : Bool :=
  (List.range parent.columns.length).any fun j =>
    (changed j || (parent.rowidAlias == some j && rowidChanged)) &&
      match parent.columns[j]? with
      | some col =>
        if fk.parentColumns.isEmpty then parent.isKeyColumn j
        else fk.parentColumns.any (sameName · col.name)
      | none => false

/-- The failure of a foreign key whose parent has no key to refer to. -/
def keyMismatch (child parent : String) : String :=
  let c := child.replace "\"" "\"\""
  let p := parent.replace "\"" "\"\""
  s!"foreign key mismatch - \"{c}\" referencing \"{p}\""

/-- The foreign keys that refer to a table, with their child tables, in the
order the library keeps them: the newest first. -/
def Catalog.referencing (c : Catalog) (parent : String) : List (Table × ForeignKey) :=
  ((c.tables.flatMap fun t => t.foreignKeys.map fun fk => (t, fk)).filter fun (_, fk) =>
    sameName fk.parent parent).reverse

/-- Whether a table takes part in a foreign key, as child or as parent. -/
def Catalog.fkTouches (c : Catalog) (t : Table) : Bool :=
  !t.foreignKeys.isEmpty || !(c.referencing t.name).isEmpty

/-- The conjunction of a nonempty list of conditions, grouped from the left. -/
def conjunction : List Expr → Expr
  | [] => .lit (.int 1)
  | e :: es => es.foldl (fun acc x => .binary .and acc x) e

/-- The statement a foreign key's action runs on the child table when a
parent row leaves (`update` false) or its key changes, seeing the parent
row as `OLD` (and `NEW`); none for `NO ACTION`.  A child row is one whose
referring columns equal the old key, compared as `OLD.key = column`: the
parent column's collation and the child column's affinity. -/
def ForeignKey.actionStmt (fk : ForeignKey) (parent child : Table) (key : List (Nat × ParentColumn))
    (update : Bool) : Option Stmt :=
  let pairs := key.map fun ((c, pc) : Nat × ParentColumn) =>
    (c, ((child.columns[c]?).map fun (col : Column) => col.name).getD "", pc.name parent)
  let filter := conjunction (pairs.map fun (_, cn, pn) =>
    Expr.binary .eq (.column (some "old") pn false) (.column none cn false))
  let defaultOf (c : Nat) : Expr :=
    match child.columns[c]? with
    | some col => if col.generated.isSome then .lit .null else col.default.getD (.lit .null)
    | none => .lit .null
  let action := if update then fk.onUpdate else fk.onDelete
  match action with
  | .noAction => none
  | .restrict =>
    let raise : ResultColumn := .expr (.raise .abort "FOREIGN KEY constraint failed") none ""
    some (.select (.ofSelect (.core false [raise] (some (.table child.name none)) (some filter) [] none)))
  | .cascade =>
    if update then
      some (.update none child.name (pairs.map fun (_, cn, pn) => (cn, .column (some "new") pn false)) none
        (some filter))
    else some (.delete child.name (some filter))
  | .setNull => some (.update none child.name (pairs.map fun (_, cn, _) => (cn, .lit .null)) none (some filter))
  | .setDefault =>
    some (.update none child.name (pairs.map fun (c, cn, _) => (cn, defaultOf c)) none (some filter))

/-- When an update's action runs: when the key is not, under `IS` and the
parent columns' collations, what it was. -/
def ForeignKey.actionWhen (parent : Table) (key : List (Nat × ParentColumn)) : Expr :=
  .unary .not (conjunction (key.map fun ((_, pc) : Nat × ParentColumn) =>
    Expr.binary .is (.column (some "old") (pc.name parent) false) (.column (some "new") (pc.name parent) false)))

end Sql
end PowChain
