import PowChain.Sql.ForeignKey

/-!
# Statements that change rows

`INSERT`, `UPDATE` and `DELETE`, with the triggers they fire and the
constraints they keep.

* Each row of an `INSERT` is made of the values given and the defaults of the
  other columns, under the columns' affinities; `BEFORE` triggers see it; it
  gets the next rowid (one past the greatest) unless one is given; computed
  columns are computed; then the constraints are checked in turn: `NOT NULL`
  (twice when a `REPLACE` put a default in place or a computed column must
  not be null), the types of a `STRICT` table, `CHECK`, the rowid, and each
  unique index, newest first and those resolved by `REPLACE` last.  Then the
  row is stored and `AFTER` triggers run.
* A broken constraint is resolved by the statement's `OR` clause, else the
  constraint's own `ON CONFLICT`, else `ABORT`: `IGNORE` skips the row,
  `REPLACE` deletes the rows in the way (firing no triggers) or puts a
  column's default in place, and the others fail the statement.  A `CHECK`
  is never resolved by `REPLACE`.
* A statement inside a trigger resolves conflicts by the `OR` clause of the
  statement that fired the trigger, if it had one; a `DELETE` has none.
* Triggers fire newest first; a trigger that is running does not fire again.
  `RAISE(IGNORE)` drops the row the firing statement was working on.
* A view is changed only through its `INSTEAD OF` triggers.
* Once the file refuses writes, the first row a statement would change fails
  it.
-/

namespace PowChain
namespace Sql

/-- What a running statement knows of the statements around it. -/
structure Context where
  /-- The `OR` clause in force from the statement that fired the trigger. -/
  override : Option Conflict := none
  /-- The triggers running, innermost first. -/
  running : List String := []
  params : Array Value := #[]
  /-- The `NEW` and `OLD` rows of the trigger running. -/
  frames : List Frame := []
  /-- Whether the statement runs inside a trigger or a foreign key's action. -/
  nested : Bool := false
  /-- Whether an `INSERT` may change more than the one row it adds: it
  reads a query or several rows, has triggers, or may replace rows. -/
  multiWrite : Bool := false
  /-- How many trigger programs enclose the statement. -/
  level : Nat := 0
  /-- The foreign keys, with their tables, whose check of a new row the
  statement at the top level leaves out. -/
  unchecked : List (String × ForeignKey) := []

def Context.scope (ctx : Context) : Scope := { frames := ctx.frames, params := ctx.params }

/-- Whether a statement checks a new row of a table against a foreign key. -/
def Context.checksNew (ctx : Context) (t : Table) (fk : ForeignKey) : Bool :=
  ctx.nested || !ctx.unchecked.any fun (n, k) => sameName n t.name && k == fk

/-- How a broken constraint is resolved. -/
def resolution (stmt : Option Conflict) (own : Option Conflict) : Conflict :=
  stmt.getD (own.getD .abort)

/-- What fires a trigger. -/
inductive Change where
  | insert
  | delete
  /-- An update of the named columns. -/
  | update (columns : List String)

/-- Whether a trigger waits for a change. -/
def Trigger.firesOn (tr : Trigger) (c : Change) : Bool :=
  match tr.event, c with
  | .insert, .insert => true
  | .delete, .delete => true
  | .update none, .update _ => true
  | .update (some cols), .update set => cols.any fun c => set.any (sameName c ·)
  | _, _ => false

/-- A row of a table as a trigger's `NEW` or `OLD`. -/
def Table.triggerFrame (t : Table) (label : String) (rowid : Int) (values : Array Value) : Frame :=
  { label, columns := t.columns.map fun c => { name := c.name, affinity := none, collation := c.collation },
    values, rowid := if t.withoutRowid then none else some (.int rowid), named := true }

/-- A row of a view as a trigger's `NEW` or `OLD`. -/
def viewFrame (label : String) (cols : List ColumnInfo) (values : Array Value) : Frame :=
  { label, columns := cols.map fun c => { c with affinity := none }, values, named := true }

namespace Table

/-- Whether two rows are one row: the same rowid, or the same key. -/
def sameRow (t : Table) (a b : Row) : Bool :=
  match t.primaryKey with
  | some pk => if t.withoutRowid then compareByParts pk.parts a b == .eq else a.rowid == b.rowid
  | none => a.rowid == b.rowid

/-- The rows with a row put in its place in the table's order. -/
def place (t : Table) (r : Row) (rows : List Row) : List Row :=
  let before (x : Row) : Bool :=
    match t.primaryKey with
    | some pk => if t.withoutRowid then compareByParts pk.parts x r == .lt else x.rowid < r.rowid
    | none => x.rowid < r.rowid
  rows.filter before ++ [r] ++ rows.filter fun x => !before x

/-- The indexes in the order their uniqueness is checked: newest first, those
resolved by `REPLACE` last. -/
def checkOrder (t : Table) (stmt : Option Conflict) : List Index :=
  let idxs := t.indexes.reverse.filter (·.unique)
  let replaces (i : Index) : Bool := resolution none i.conflict == .replace
  let _ := stmt
  idxs.filter (!replaces ·) ++ idxs.filter replaces

/-- The name a uniqueness failure gives an index. -/
def uniqueName (t : Table) (i : Index) : String :=
  if i.parts.all fun p => match p.term with
      | .column _ => true
      | .expr _ => false then
    ", ".intercalate (i.parts.map fun p => match p.term with
      | .column j => t.name ++ "." ++ (((t.columns[j]?).map (·.name)).getD "")
      | .expr _ => "")
  else s!"index '{i.name}'"

/-- The name of the rowid in a uniqueness failure. -/
def rowidName (t : Table) : String :=
  match t.rowidAlias.bind fun i => t.columns[i]? with
  | some c => s!"{t.name}.{c.name}"
  | none => s!"{t.name}.rowid"

end Table

/-- A change to a row, refused once the file refuses writes. -/
def touch : Run Unit := do
  match (← get).frozen with
  | some m => Run.fail m
  | none => pure ()

/-- Counts a row the running statement changed; an inserted row of a table
with rowids is also the connection's last. -/
def countRow (inserted : Option Int) : Run Unit :=
  modify fun db =>
    let session := { db.session with lastRowid := inserted.getD db.session.lastRowid }
    { db with counted := db.counted + 1, session }

/-- Ends a statement of a trigger program: its count becomes the
connection's count of changes, and adds to the total. -/
def settleCount : Run Unit :=
  modify fun db =>
    let session := { db.session with changes := db.counted, totalChanges := db.session.totalChanges + db.counted }
    { db with counted := 0, session }

/-- Runs a trigger program with a count of its own, and puts back, once it
ends, the count of changes and the last rowid it began with. -/
def asProgram (body : Run Unit) : Run Unit := do
  let before ← get
  modify fun db => { db with counted := 0 }
  let restore : Run Unit := modify fun db =>
    let total := db.session.totalChanges + db.counted
    let session := { before.session with totalChanges := total }
    { db with counted := before.counted, session }
  tryCatch body fun h => do restore; throw h
  restore

/-- Replaces a table's rows.  A stored value is in the database's encoding,
as it reads back from the file. -/
def putRows (t : Table) (rows : List Row) : Run Unit := do
  touch
  modify fun db =>
    let stored := if db.encoding == .utf8 then rows
      else rows.map fun r => { r with values := r.values.map (·.inEncoding db.encoding) }
    db.setRows t.name stored

/-- Deletes rows of a table, by identity. -/
def dropRows (t : Table) (gone : List Row) : Run Unit := do
  if gone.isEmpty then return
  let rows := (← get).rowsOf t.name
  putRows t (rows.filter fun r => !gone.any (t.sameRow r))

/-- The current state of a row, if it is still there. -/
def currentRow (t : Table) (r : Row) : Run (Option Row) := do
  pure (((← get).rowsOf t.name).find? (t.sameRow r))

/-- The scope of a row of a table, for its computed columns and constraints. -/
def rowScope (ctx : Context) (t : Table) (r : Row) : Scope :=
  { frames := [t.frame t.name r], params := ctx.params }

/-- Computes the computed columns of a row, each under its affinity. -/
def computeColumns (ctx : Context) (t : Table) (r : Row) : Run Row := do
  let mut vs := r.values
  for c in t.columns, i in List.range t.columns.length do
    if let some (e, _) := c.generated then
      let v ← evalIn (rowScope ctx t { r with values := vs }) e
      vs := vs.set! i (v.withAffinity c.affinity)
  pure { r with values := vs }

/-- The value of a column's default. -/
def defaultOf (_ : Context) (c : Column) : Run Value := do
  match c.default with
  | some e => pure ((← evalIn {} e).withAffinity c.affinity)
  | none => pure .null

/-- The name of a value's type, as a `STRICT` table's failures give it. -/
def Value.typeName : Value → String
  | .null => "NULL"
  | .int _ => "INT"
  | .real _ => "REAL"
  | .text _ _ => "TEXT"
  | .blob _ _ => "BLOB"

/-- Whether a `STRICT` table checks a row's types before its `BEFORE`
triggers and generated columns, rather than after its `NOT NULL`
constraints: it does when it has either. -/
def Table.checksEarly (c : Catalog) (t : Table) (change : Change) : Bool :=
  t.strict && (t.columns.any (·.generated.isSome) ||
    (c.triggersOn t.name).any fun tr => tr.timing == .before && tr.firesOn change)

/-- Checks the values of a `STRICT` table's row against the column types. -/
def strictCheck (t : Table) (r : Row) : Run Row := do
  if !t.strict then return r
  let mut vs := r.values
  for c in t.columns, i in List.range t.columns.length do
    let v := vs.getD i .null
    if c.generated.isSome || v.isNull then continue
    let ok : Option Value := match c.stdType with
      | some .int | some .integer => match v with
        | .int _ => some v
        | _ => none
      | some .real => match v with
        | .real _ => some v
        | .int i => some (.real (realOfInt i))
        | _ => none
      | some .text => match v with
        | .text _ _ => some v
        | _ => none
      | some .blob => match v with
        | .blob _ _ => some v
        | _ => none
      | _ => some v
    match ok with
    | some w => vs := vs.set! i w
    | none =>
      let tn := (c.stdType.map StdType.name).getD "ANY"
      Run.fail s!"cannot store {v.typeName} value in {tn} column {t.name}.{c.name}"
  pure { r with values := vs }

/-- The outcome of checking a row's constraints: the row, checked, or the
row dropped by `IGNORE`. -/
inductive Checked where
  | keep (r : Row)
  | skip

/-- The `NOT NULL` constraints of a row, in two passes.  `changed` says which
columns an update changes (all, for an insert). -/
def notNullCheck (ctx : Context) (stmt : Option Conflict) (t : Table) (changed : Nat → Bool)
    (r : Row) : Run Checked := do
  let mut vs := r.values
  let mut seenReplace := 0
  let mut generatedCount := 0
  -- the first pass
  for c in t.columns, i in List.range t.columns.length do
    let some own := c.notNull | continue
    if t.rowidAlias == some i then continue
    if c.generated.isSome then
      generatedCount := generatedCount + 1
      continue
    if !changed i then continue
    let mode := match resolution stmt own with
      | .replace => if c.default.isNone then Conflict.abort else .replace
      | m => m
    if (vs.getD i .null).isNull then
      match mode with
      | .replace =>
        seenReplace := seenReplace + 1
        vs := vs.set! i (← defaultOf ctx c)
      | .ignore => return .skip
      | m => Run.failAs m s!"NOT NULL constraint failed: {t.name}.{c.name}"
  if generatedCount == 0 && seenReplace == 0 then return .keep { r with values := vs }
  -- the second pass
  let mut row : Row := { r with values := vs }
  if seenReplace > 0 then row ← computeColumns ctx t row
  for c in t.columns, i in List.range t.columns.length do
    let some own := c.notNull | continue
    if t.rowidAlias == some i then continue
    if c.generated.isNone && !changed i then continue
    let base := resolution stmt own
    let mode := if base == .replace then Conflict.abort else base
    if base != .replace && c.generated.isNone then continue
    if (row.values.getD i .null).isNull then
      match mode with
      | .ignore => return .skip
      | m => Run.failAs m s!"NOT NULL constraint failed: {t.name}.{c.name}"
  pure (.keep row)

/-- Whether a row belongs in an index: a partial index holds the rows its
filter accepts. -/
def inIndex (ctx : Context) (t : Table) (i : Index) (r : Row) : Run Bool := do
  match i.filter with
  | none => pure true
  | some f => pure ((← evalIn (rowScope ctx t r) f).truth == some true)

/-- The key of a row in an index. -/
def indexKey (ctx : Context) (t : Table) (i : Index) (r : Row) : Run (List Value) :=
  i.parts.mapM fun p => match p.term with
    | .column j => pure (r.values.getD j .null)
    | .expr e => evalIn (rowScope ctx t r) e

/-- Whether two keys are equal under an index's collations. -/
def sameKey (i : Index) (a b : List Value) : Bool :=
  (i.parts.zip (a.zip b)).all fun (p, x, y) => Value.compareWith p.collation x y == .eq

/-- A uniqueness constraint of a table: its rowid, or a unique index. -/
inductive KeySlot where
  | rowid
  | index (i : Index)

/-- Whether two uniqueness constraints are one. -/
def KeySlot.same : KeySlot → KeySlot → Bool
  | .rowid, .rowid => true
  | .index a, .index b => sameName a.name b.name
  | _, _ => false

/-- Whether a term of an `ON CONFLICT` target names a column of a key under
the key's collation, or under none. -/
def upsertTermMatches (t : Table) (p : KeyPart) (c : IndexedColumn) : Bool :=
  let collationOk := match c.collation with
    | some name => Collation.ofName? name == some p.collation
    | none => true
  collationOk && match p.term, c.expr with
    | .column j, .column _ n _ => t.columnIndex n == some j
    | _, _ => false

/-- The uniqueness constraint an `ON CONFLICT` target names: the rowid, when
it names that alone, else the first unique index whose columns it names,
each once; an index with a condition only for a target with one. -/
def Table.upsertSlot (t : Table) (cols : List IndexedColumn) (cond : Option Expr) : Option KeySlot :=
  let isRowid (c : IndexedColumn) : Bool := c.collation.isNone && match c.expr with
    | .column _ n _ => match t.columnIndex n with
      | some i => t.rowidAlias == some i
      | none => isRowidName n
    | _ => false
  if !t.withoutRowid && cols.length == 1 && cols.all isRowid then some .rowid
  else
    let fits (i : Index) : Bool :=
      i.parts.length == cols.length && (i.filter.isNone || cond.isSome) &&
        i.parts.all fun p => cols.any (upsertTermMatches t p)
    ((t.checkOrder none).find? fits).map .index

/-- The `ON CONFLICT` clause that takes a clash on a constraint: the first
whose target names it, else one without a target. -/
def Table.upsertFor (t : Table) (upserts : List Upsert) (slot : KeySlot) : Option Upsert :=
  upserts.find? fun u => match u.target with
    | none => true
    | some (cols, cond) => ((t.upsertSlot cols cond).map (KeySlot.same · slot)).getD false

/-- The order in which a new row's uniqueness is checked: the constraints
the `ON CONFLICT` clauses name, in their order, then the rowid, then the
other indexes as `checkOrder` has them.  The rowid is checked only when it
was given. -/
def Table.keyOrder (t : Table) (stmt : Option Conflict) (rowidChecked : Bool) (upserts : List Upsert) :
    List KeySlot :=
  let useRowid (k : KeySlot) : Bool := match k with
    | .rowid => rowidChecked && !t.withoutRowid
    | .index _ => true
  let named := (upserts.filterMap fun u => u.target.bind fun (cols, cond) => t.upsertSlot cols cond).foldl
    (fun acc k => if acc.any (KeySlot.same k) then acc else acc ++ [k]) []
  let rowid : List KeySlot := if rowidChecked && !t.withoutRowid then [.rowid] else []
  let rest := ((t.checkOrder stmt).map KeySlot.index).filter fun k => !named.any (KeySlot.same k)
  if named.isEmpty then rowid ++ rest
  else
    let first := named.filter useRowid
    first ++ (if named.any (KeySlot.same .rowid) then [] else rowid) ++ rest

/-- The checks after `NOT NULL`: `CHECK` constraints, the rowid and unique
indexes.  `self` is the row an update replaces; `rowidChanged` says whether
the rowid is new; `replace` deletes the rows in the way of a `REPLACE`.  A
clash that an `ON CONFLICT` clause of `upserts` takes drops the row, after
`doUpdate` changed the row it clashed with under a `DO UPDATE`. -/
def keyChecks (ctx : Context) (stmt : Option Conflict) (t : Table) (changed : Nat → Bool)
    (isUpdate : Bool) (self : Option Row) (rowidChanged : Bool) (replace : List Row → Run Unit)
    (upserts : List Upsert) (doUpdate : Upsert → Row → Run Unit) (r : Row) : Run Checked := do
  -- CHECK constraints
  for ck in t.checks do
    if isUpdate then
      let reads := ck.expr.refs.filterMap fun (_, n) => t.columnIndex n
      let readsRowid := ck.expr.refs.any fun (_, n) => isRowidName n && (t.columnIndex n).isNone
      if !(reads.any changed || (readsRowid && rowidChanged)) then continue
    let v ← evalIn (rowScope ctx t r) ck.expr
    if v.truth == some false then
      match resolution stmt none with
      | .ignore => return .skip
      | m => Run.failAs m s!"CHECK constraint failed: {ck.name}"
  let others (rows : List Row) : List Row := match self with
    | some s => rows.filter fun x => !t.sameRow x s
    | none => rows
  for slot in t.keyOrder stmt rowidChanged upserts do
    match slot with
    | .rowid =>
      let clash := (others ((← get).rowsOf t.name)).filter fun x => x.rowid == r.rowid
      if !clash.isEmpty then
        match t.upsertFor upserts slot with
        | some u =>
          if let some old := clash.head? then
            if u.update.isSome then doUpdate u old
          return .skip
        | none =>
          match resolution stmt t.rowidConflict with
          | .replace => replace clash
          | .ignore => return .skip
          | m => Run.failAs m s!"UNIQUE constraint failed: {t.rowidName}"
    | .index i =>
      if isUpdate then
        let touched := i.parts.any fun p => match p.term with
          | .column j => changed j
          | .expr _ => true
        if !touched && !(t.withoutRowid && i.primary) && i.filter.isNone then continue
      if !(← inIndex ctx t i r) then continue
      let key ← indexKey ctx t i r
      if key.any Value.isNull then continue
      let rows := others ((← get).rowsOf t.name)
      let mut clash : List Row := []
      for x in rows do
        if ← inIndex ctx t i x then
          if sameKey i key (← indexKey ctx t i x) then clash := clash ++ [x]
      if !clash.isEmpty then
        match t.upsertFor upserts slot with
        | some u =>
          if let some old := clash.head? then
            if u.update.isSome then doUpdate u old
          return .skip
        | none =>
          match resolution stmt i.conflict with
          | .replace => replace clash
          | .ignore => return .skip
          | m => Run.failAs m s!"UNIQUE constraint failed: {t.uniqueName i}"
  pure (.keep r)

/-- The rowid of a value given for it: an integer, or text or a real that is
one. -/
def rowidOf (v : Value) : Option Int :=
  match v.withAffinity .integer with
  | .int i => some i
  | _ => none

/-- The next rowid of a table: one past the greatest. -/
def nextRowid (t : Table) : Run Int := do
  let rows := (← get).rowsOf t.name
  pure ((rows.foldl (fun m r => max m r.rowid) 0) + 1)

/-- Runs a trigger program, dropping the rest of it when it raises `IGNORE`
for a row that is already done. -/
def afterward (x : Run Unit) : Run Unit :=
  tryCatch x fun h => match h with
    | .ignore => pure ()
    | e => throw e

/-- Runs the work on one row; `RAISE(IGNORE)` drops the row. -/
def forRow (x : Run Unit) : Run Unit :=
  tryCatch x fun h => match h with
    | .ignore => pure ()
    | e => throw e

/-- The statement of a column list: each name's column, none for the rowid. -/
def targetsOf (t : Table) (names : List String) : Run (List (Option Nat)) :=
  names.mapM fun n =>
    match t.columnIndex n with
    | some i =>
      match (t.columns[i]?).bind (·.generated) with
      | some _ => Run.fail s!"cannot INSERT into generated column \"{n}\""
      | none => pure (some i)
    | none =>
      if isRowidName n && !t.withoutRowid then pure none
      else Run.fail s!"table {t.name} has no column named {n}"

/-! ## Foreign keys -/

/-- How deeply trigger programs, and the actions of foreign keys, may nest. -/
def triggerDepthLimit : Nat := 1000

/-- Counts breaches of the immediate foreign keys, or of the deferred ones. -/
def fkAdd (deferred : Bool) (k : Int) : Run Unit :=
  modify fun db =>
    if deferred then { db with fkDeferred := db.fkDeferred + k }
    else { db with fkImmediate := db.fkImmediate + k }

/-- Whether no breach of the immediate foreign keys, or of the deferred
ones, is counted; a change that could only mend one is then not looked at. -/
def fkClear (deferred : Bool) : Run Bool := do
  let db ← get
  pure ((if deferred then db.fkDeferred else db.fkImmediate) == 0)

/-- The parent table of a foreign key with the key it refers to, when both
are there. -/
def fkParent (fk : ForeignKey) : Run (Option (Table × List (Nat × ParentColumn))) := do
  pure (((← get).catalog.table? fk.parent).bind fun p => (fk.parentKey p).map fun key => (p, key))

/-- A row leaves (`entering` false) or enters a table, as the foreign keys of
the table that `relevant` picks see it: a row entering that refers to no
parent row, nor to itself, is a breach; a row leaving that refers to none
mends one, if any is counted. -/
def fkChildSide (t : Table) (relevant : ForeignKey → Bool) (entering : Bool) (r : Row) : Run Unit := do
  for fk in t.foreignKeys.reverse do
    if !relevant fk then continue
    if !entering && (← fkClear fk.deferred) then continue
    let some (parent, key) ← fkParent fk | continue
    let some vals := referringValues key r | continue
    if entering && sameName parent.name t.name && refersToItself key r then continue
    let found := ((← get).rowsOf parent.name).any fun p => parentMatches key p vals
    if !found then fkAdd fk.deferred (if entering then 1 else -1)

/-- A row leaves or enters a table, as the foreign keys referring to it that
`relevant` picks see it: each child row referring to a key that leaves is a
breach, the row itself apart; each referring to a key that enters mends one,
if any is counted. -/
def fkParentSide (t : Table) (relevant : ForeignKey → Bool) (entering : Bool) (r : Row) : Run Unit := do
  for (child, fk) in (← get).catalog.referencing t.name do
    if !relevant fk then continue
    if entering && (← fkClear fk.deferred) then continue
    let some key := fk.parentKey t | continue
    let vals := keyValues key r
    let itself (x : Row) : Bool := !entering && sameName child.name t.name && t.sameRow x r
    let kids := ((← get).rowsOf child.name).filter fun x => childMatches child key vals x && !itself x
    let k : Int := kids.length
    if k != 0 then fkAdd fk.deferred (if entering then -k else k)

/-- Whether an `INSERT` names the rowid among its columns, or, naming none,
fills a column that stands for the rowid. -/
def Table.rowidGiven (t : Table) (names : Option (List String)) : Bool :=
  match names with
  | some ns => ns.any fun nm => match t.columnIndex nm with
    | some i => t.rowidAlias == some i
    | none => isRowidName nm && !t.withoutRowid
  | none => t.rowidAlias.isSome

/-- Whether an `INSERT` may resolve a clash by `REPLACE`: on the rowid, when
it is given, or on a unique index. -/
def Table.mayReplace (t : Table) (stmt : Option Conflict) (rowidGiven : Bool) : Bool :=
  (!t.withoutRowid && rowidGiven && resolution stmt t.rowidConflict == .replace) ||
    t.indexes.any fun i => i.unique && resolution stmt i.conflict == .replace

/-- Whether an `UPDATE` of the columns `changed` may resolve a clash by
`REPLACE`: on the rowid, when it changes, or on a unique index it checks. -/
def Table.updateMayReplace (t : Table) (stmt : Option Conflict) (changed : Nat → Bool)
    (rowidChanged : Bool) : Bool :=
  (!t.withoutRowid && rowidChanged && resolution stmt t.rowidConflict == .replace) ||
    t.indexes.any fun i =>
      let touched := i.parts.any fun p => match p.term with
        | .column j => changed j
        | .expr _ => true
      i.unique && (touched || (t.withoutRowid && i.primary) || i.filter.isSome) &&
        resolution stmt i.conflict == .replace

/-- The columns that name a row of a table in a query reading it: its
rowid, by a name no column takes, or its primary key. -/
def Table.identityRefs (t : Table) : List Expr :=
  let ref (n : String) : Expr := .column (some t.name) n false
  if t.withoutRowid then
    match t.primaryKey with
    | some pk => pk.parts.filterMap fun p => match p.term with
      | .column j => (t.columns[j]?).map fun c => ref c.name
      | .expr _ => none
    | none => []
  else
    match ["rowid", "_rowid_", "oid"].find? fun n => (t.columnIndex n).isNone with
    | some n => [ref n]
    | none => match t.rowidAlias.bind fun i => t.columns[i]? with
      | some c => [ref c.name]
      | none => [ref "rowid"]

/-- The query an `UPDATE ... FROM` reads: the table joined with the
sources, filtered, giving each row's identity and then the values set. -/
def updateFromQuery (t : Table) (sets : List (String × Expr)) (src : Source) (filter : Option Expr) : Query :=
  let items := (t.identityRefs ++ sets.map (·.2)).map fun e => ResultColumn.expr e none ""
  .ofSelect (.core false items (some (.join (.table t.name none) .inner false src none [])) filter [] none)

/-- The rows an `UPDATE ... FROM` changes, with the values it sets in them,
as its join computed them.  A row the join gives more than once takes the
values of the last; the rows come in the table's order. -/
def updateFromRows (ctx : Context) (t : Table) (sets : List (String × Expr)) (src : Source)
    (filter : Option Expr) : Run (List (Row × Option (List Value))) := do
  let k := t.identityRefs.length
  let rel ← query ctx.scope (updateFromQuery t sets src filter)
  let joined := rel.rows.map fun r => (r.toList.take k, r.toList.drop k)
  let keyCols : List (Nat × Collation) := match t.primaryKey with
    | some pk => pk.parts.filterMap fun p => match p.term with
      | .column j => some (j, p.collation)
      | .expr _ => none
    | none => []
  let names (r : Row) (ids : List Value) : Bool :=
    if t.withoutRowid then
      ids.length == keyCols.length && (keyCols.zip ids).all fun ((j, c), v) =>
        Value.compareWith c (r.values.getD j .null) v == .eq
    else ids == [.int r.rowid]
  pure (((← get).rowsOf t.name).filterMap fun r =>
    ((joined.filter fun (ids, _) => names r ids).getLast?).map fun (_, vals) => (r, some vals))

mutual

/-- Runs a statement. -/
def execStmt : Nat → Context → Stmt → Run Unit
  | 0, _, _ => Run.fail "too many levels of trigger recursion"
  | n + 1, ctx, st =>
    match st with
    | .select q => do
      let _ ← query ctx.scope q
      pure ()
    | .insert conflict table cols rows upserts => insertRows n ctx conflict table cols rows upserts
    | .delete table filter => deleteRows n ctx table filter
    | .update conflict table sets src filter => updateRows n ctx conflict table sets src filter none

/-- Fires the triggers on a table or view for a change, at a time. -/
def fire : Nat → Context → String → Timing → Change → Option Frame → Option Frame → Run Unit
  | 0, _, _, _, _, _, _ => Run.fail "too many levels of trigger recursion"
  | n + 1, ctx, target, timing, change, old, new => do
    let trs := ((← get).catalog.triggersOn target).filter fun tr =>
      tr.timing == timing && tr.firesOn change && !ctx.running.any (sameName · tr.name)
    let frames := new.toList.map (fun f => { f with label := "new" }) ++
      old.toList.map fun f => { f with label := "old" }
    for tr in trs do
      -- a trigger dropped since the statement began does not fire
      let live := (← get).catalog.triggers.any fun x => sameName x.name tr.name
      if !live then continue
      if ctx.level ≥ triggerDepthLimit then Run.fail "too many levels of trigger recursion"
      let inner : Context := { ctx with
        running := tr.name :: ctx.running, frames, nested := true, level := ctx.level + 1, params := #[] }
      asProgram do
        let go ← match tr.when with
          | some w => do pure ((← evalIn inner.scope w).truth == some true)
          | none => pure true
        if go then
          for st in tr.body do
            execStmt n inner st
            if !(st matches .select _) then settleCount

/-- Runs an `INSERT`. -/
def insertRows : Nat → Context → Option Conflict → String → Option (List String) → InsertRows →
    List Upsert → Run Unit
  | 0, _, _, _, _, _, _ => Run.fail "too many levels of trigger recursion"
  | n + 1, ctx, conflict, table, names, source, upserts => do
    let db ← get
    let stmtMode := ctx.override.orElse fun _ => conflict
    let inner : Context := { ctx with override := stmtMode }
    -- the rows to insert, as lists of values
    let sourceRows : Run (List (List Value)) := match source with
      | .values rows => rows.mapM fun r => r.mapM (evalIn ctx.scope)
      | .query q => do pure ((← query ctx.scope q).rows.map (·.toList))
      | .defaults => pure [[]]
    match db.catalog.table? table with
    | none =>
      match db.catalog.view? table with
      | none => Run.fail s!"no such table: {table}"
      | some v =>
        if !(db.catalog.triggersOn v.name).any fun tr => tr.timing == .insteadOf && tr.firesOn .insert then
          Run.fail s!"cannot modify {v.name} because it is a view"
        let rel ← query {} v.query
        let colNames := v.columns.getD (rel.columns.map (·.name))
        let cols := (rel.columns.zip colNames).map fun (c, nm) => { c with name := nm }
        let positions ← match names with
          | some ns => ns.mapM fun nm => match colNames.findIdx? (sameName · nm) with
            | some i => pure i
            | none => Run.fail s!"table {v.name} has no column named {nm}"
          | none => pure (List.range cols.length)
        for vals in ← sourceRows do
          if vals.length != positions.length then
            Run.fail s!"table {v.name} has {cols.length} columns but {vals.length} values were supplied"
          let mut row : Array Value := (cols.map fun _ => Value.null).toArray
          for p in positions, x in vals do
            row := row.set! p x
          forRow (fire n inner v.name .insteadOf .insert none (some (viewFrame "new" cols row)))
    | some t =>
      readable t.name
      let several := match source with
        | .values rows => rows.length > 1
        | .query _ => true
        | .defaults => false
      let multiWrite := ctx.nested || several ||
        (db.catalog.triggersOn t.name).any (·.firesOn .insert) ||
        (t.mayReplace stmtMode (t.rowidGiven names) && db.catalog.fkTouches t)
      let inner : Context := { inner with multiWrite }
      let targets ← match names with
        | some ns => targetsOf t ns
        | none => pure ((List.range t.columns.length).filter (fun i =>
            ((t.columns[i]?).bind (·.generated)).isNone) |>.map some)
      for vals in ← sourceRows do
        if source matches .defaults then pure ()
        else if vals.length != targets.length then
          match names with
          | some _ => Run.fail s!"{vals.length} values for {targets.length} columns"
          | none => Run.fail s!"table {t.name} has {targets.length} columns but {vals.length} values were supplied"
        forRow (insertOne n inner t targets upserts vals)

/-- Inserts one row of given values. -/
def insertOne : Nat → Context → Table → List (Option Nat) → List Upsert → List Value → Run Unit
  | 0, _, _, _, _, _ => Run.fail "too many levels of trigger recursion"
  | n + 1, ctx, t, targets, upserts, vals => do
    let stmtMode := ctx.override
    -- the row as given, defaults filling the rest, under the affinities
    let mut vs : Array Value := #[]
    for c in t.columns, i in List.range t.columns.length do
      let given := (targets.zip vals).find? fun (tg, _) => tg == some i
      let v ← match given with
        | some (_, x) => pure x
        | none => if c.generated.isSome then pure .null else defaultOf ctx c
      vs := vs.push (if c.generated.isSome then v else v.withAffinity c.affinity)
    let givenRowid : Option Value :=
      match t.rowidAlias with
      | some a => (targets.zip vals).find? (fun (tg, _) => tg == some a) |>.map (·.2)
      | none => none
    let givenRowid := givenRowid.orElse fun _ =>
      ((targets.zip vals).find? fun (tg, _) => tg.isNone).map (·.2)
    let rowid : Option Int ← match givenRowid with
      | none => pure none
      | some .null => pure none
      | some v =>
        if t.withoutRowid then pure none
        else match rowidOf v with
          | some i => pure (some i)
          | none => Run.fail "datatype mismatch"
    let given : Array Value := match t.rowidAlias, rowid with
      | some a, some i => vs.set! a (.int i)
      | _, _ => vs
    let row0 : Row := { rowid := rowid.getD (-1), values := given }
    let early := t.checksEarly (← get).catalog .insert
    let row0 ← if early then strictCheck t row0 else pure row0
    -- generated columns, then BEFORE triggers
    let row0 ← computeColumns ctx t row0
    fire n ctx t.name .before .insert none (some (t.triggerFrame "new" row0.rowid row0.values))
    let rid ← match rowid with
      | some i => pure i
      | none => if t.withoutRowid then pure 0 else nextRowid t
    let numbered := match t.rowidAlias with
      | some a => row0.values.set! a (.int rid)
      | none => row0.values
    let row ← computeColumns ctx t { rowid := rid, values := numbered }
    match ← notNullCheck ctx stmtMode t (fun _ => true) row with
    | .skip => pure ()
    | .keep row =>
      let row ← if early then pure row else strictCheck t row
      -- a `DO UPDATE` changes the row clashed with, seeing this one as `excluded`
      let doUpdate (u : Upsert) (old : Row) : Run Unit := do
        let some (sets, cond) := u.update | pure ()
        let excluded : Frame := { t.frame "excluded" row with named := true }
        let upd : Context := { ctx with override := some .abort, frames := excluded :: ctx.frames }
        updateRows n upd none t.name sets none cond (some old)
      match ← keyChecks ctx stmtMode t (fun _ => true) false none rowid.isSome (removeRows n ctx t)
          upserts doUpdate row with
      | .skip => pure ()
      | .keep row =>
        fkChildSide t (ctx.checksNew t) true row
        fkParentSide t (fun fk => fk.deferred || ctx.nested || ctx.multiWrite) true row
        let rows := (← get).rowsOf t.name
        putRows t (t.place row rows)
        countRow (if t.withoutRowid then none else some row.rowid)
        afterward (fire n ctx t.name .after .insert none (some (t.triggerFrame "new" row.rowid row.values)))

/-- Runs a `DELETE`. -/
def deleteRows : Nat → Context → String → Option Expr → Run Unit
  | 0, _, _, _ => Run.fail "too many levels of trigger recursion"
  | n + 1, ctx, table, filter => do
    let db ← get
    let inner : Context := { ctx with override := none }
    match db.catalog.table? table with
    | none =>
      match db.catalog.view? table with
      | none => Run.fail s!"no such table: {table}"
      | some v =>
        if !(db.catalog.triggersOn v.name).any fun tr => tr.timing == .insteadOf && tr.firesOn .delete then
          Run.fail s!"cannot modify {v.name} because it is a view"
        let q : Query := .ofSelect (.core false [.star none] (some (.table v.name none)) filter [] none)
        let rel ← query ctx.scope q
        for r in rel.rows do
          forRow (fire n inner v.name .insteadOf .delete (some (viewFrame "old" rel.columns r)) none)
    | some t =>
      readable t.name
      let uses := List.range t.columns.length
      let candidates := plannedRows t t.name filter uses none (db.rowsOf t.name)
      let mut matched : List Row := []
      for r in candidates do
        let sc := ctx.scope.push (t.frame t.name r)
        let keep ← match filter with
          | some f => do pure ((← evalIn sc f).truth == some true)
          | none => pure true
        if keep then matched := matched ++ [r]
      for r in matched do
        forRow do
          let some cur ← currentRow t r | return
          fire n inner t.name .before .delete (some (t.triggerFrame "old" cur.rowid cur.values)) none
          let some cur ← currentRow t cur | return
          removeRows n inner t [cur]
          countRow none
          afterward (fire n inner t.name .after .delete (some (t.triggerFrame "old" cur.rowid cur.values)) none)

/-- Runs an `UPDATE`: of the rows its filter picks, of the rows its join
with other sources picks, or (`only`) of one row, if the filter takes it. -/
def updateRows : Nat → Context → Option Conflict → String → List (String × Expr) → Option Source →
    Option Expr → Option Row → Run Unit
  | 0, _, _, _, _, _, _, _ => Run.fail "too many levels of trigger recursion"
  | n + 1, ctx, conflict, table, sets, src, filter, only => do
    let db ← get
    let stmtMode := ctx.override.orElse fun _ => conflict
    let inner : Context := { ctx with override := stmtMode }
    let setNames := sets.map (·.1)
    match db.catalog.table? table with
    | none =>
      match db.catalog.view? table with
      | none => Run.fail s!"no such table: {table}"
      | some v =>
        if !(db.catalog.triggersOn v.name).any fun tr => tr.timing == .insteadOf && tr.firesOn (.update setNames) then
          Run.fail s!"cannot modify {v.name} because it is a view"
        let q : Query := .ofSelect (.core false [.star none] (some (.table v.name none)) filter [] none)
        let rel ← query ctx.scope q
        for r in rel.rows do
          let sc := ctx.scope.push { label := v.name, columns := rel.columns, values := r }
          let mut nv := r
          for (c, e) in sets do
            match rel.columns.findIdx? fun ci => sameName ci.name c with
            | some i => nv := nv.set! i (← evalIn sc e)
            | none => Run.fail s!"no such column: {c}"
          forRow (fire n inner v.name .insteadOf (.update setNames)
            (some (viewFrame "old" rel.columns r)) (some (viewFrame "new" rel.columns nv)))
    | some t =>
      readable t.name
      -- the columns set, none for the rowid
      let targets ← sets.mapM fun (c, _) =>
        match t.columnIndex c with
        | some i => pure (some i)
        | none => if isRowidName c && !t.withoutRowid then pure none else Run.fail s!"no such column: {c}"
      let changed (i : Nat) : Bool := targets.contains (some i)
      let rowidSet := targets.contains none || (t.rowidAlias.map changed).getD false
      let childRel (fk : ForeignKey) : Bool := sameName fk.parent t.name || fk.childChanged t changed rowidSet
      let parentRel (fk : ForeignKey) : Bool := fk.parentChanged t changed rowidSet
      let hasFK := t.foreignKeys.any (fun fk => fk.childChanged t changed rowidSet) ||
        (db.catalog.referencing t.name).any fun (_, fk) => parentRel fk
      let reads := (sets.map (·.2) ++ filter.toList).flatMap Expr.refs
      let uses := (reads.filterMap fun (_, c) => t.columnIndex c) ++ (targets.filterMap id)
      let candidates := match only with
        | some r => [r]
        | none => plannedRows t t.name filter uses none (db.rowsOf t.name)
      let mut matched : List (Row × Option (List Value)) := []
      if let (none, some s) := (only, src) then matched ← updateFromRows ctx t sets s filter
      else
        for r in candidates do
          let keep ← match filter with
            | some f => do pure ((← evalIn (ctx.scope.push (t.frame t.name r)) f).truth == some true)
            | none => pure true
          if keep then matched := matched ++ [(r, none)]
      for (r, given) in matched do
        forRow do
          let some cur ← currentRow t r | return
          let sc := ctx.scope.push (t.frame t.name cur)
          let mut nv := cur.values
          let mut newRowid := cur.rowid
          for ((_, e), k) in sets.zipIdx, tg in targets do
            let v ← match given with
              | some vs => pure (vs.getD k .null)
              | none => evalIn sc e
            match tg with
            | some i =>
              let c := t.columns[i]?
              if t.rowidAlias == some i then
                match rowidOf v with
                | some k => nv := nv.set! i (.int k); newRowid := k
                | none =>
                  let colName := (c.map (·.name)).getD ""
                  if v.isNull then Run.fail s!"NOT NULL constraint failed: {t.name}.{colName}"
                  else Run.fail "datatype mismatch"
              else nv := nv.set! i (v.withAffinity ((c.map (·.affinity)).getD .blob))
            | none =>
              match rowidOf v with
              | some k =>
                newRowid := k
                if let some a := t.rowidAlias then nv := nv.set! a (.int k)
              | none => Run.fail "datatype mismatch"
          let early := t.checksEarly (← get).catalog (.update setNames)
          let proposed : Row := { rowid := newRowid, values := nv }
          let proposed ← if early then strictCheck t proposed else pure proposed
          let proposed ← computeColumns ctx t proposed
          fire n inner t.name .before (.update setNames)
            (some (t.triggerFrame "old" cur.rowid cur.values)) (some (t.triggerFrame "new" proposed.rowid proposed.values))
          let some now ← currentRow t cur | return
          -- columns not set take the row's values as the triggers left them
          let merged : Array Value := (List.range t.columns.length).toArray.map fun i =>
            if changed i then proposed.values.getD i .null else now.values.getD i .null
          let row ← computeColumns ctx t { rowid := proposed.rowid, values := merged }
          match ← notNullCheck ctx stmtMode t changed row with
          | .skip => pure ()
          | .keep row =>
            let row ← if early then pure row else strictCheck t row
            match ← keyChecks ctx stmtMode t changed true (some now) (rowidSet && row.rowid != now.rowid)
                (removeRows n inner t) [] (fun _ _ => pure ()) row with
            | .skip => pure ()
            | .keep row =>
              let rest := ((← get).rowsOf t.name).filter fun x => !t.sameRow x now
              if hasFK then
                fkChildSide t childRel false now
                fkParentSide t parentRel false now
                putRows t rest
                fkChildSide t (fun fk => childRel fk && inner.checksNew t fk) true row
                fkParentSide t parentRel true row
              putRows t (t.place row rest)
              countRow none
              if hasFK then fkActions n inner t parentRel now (some row)
              afterward (fire n inner t.name .after (.update setNames)
                (some (t.triggerFrame "old" now.rowid now.values)) (some (t.triggerFrame "new" row.rowid row.values)))

/-- Deletes rows of a table as a `DELETE` does once its `BEFORE` triggers
ran: the foreign keys see each row leave, the row goes, and the keys
referring to it act. -/
def removeRows : Nat → Context → Table → List Row → Run Unit
  | 0, _, _, _ => Run.fail "too many levels of trigger recursion"
  | n + 1, ctx, t, rows => do
    for r in rows do
      fkChildSide t (fun _ => true) false r
      fkParentSide t (fun _ => true) false r
      dropRows t [r]
      fkActions n ctx t (fun _ => true) r none

/-- Carries out the actions of the foreign keys, among those `relevant`
picks, that refer to a table a row left (`new` none) or whose key changed:
the child rows referring to the old key are deleted, made to refer to the
new key, set to null or to their defaults, or, under `RESTRICT`, the change
fails.  Each runs as a trigger program does, resolving clashes by `ABORT`;
an update's runs only when the key did change. -/
def fkActions : Nat → Context → Table → (ForeignKey → Bool) → Row → Option Row → Run Unit
  | 0, _, _, _, _, _ => Run.fail "too many levels of trigger recursion"
  | n + 1, ctx, t, relevant, old, new => do
    for (child, fk) in (← get).catalog.referencing t.name do
      if !relevant fk then continue
      let some key := fk.parentKey t | continue
      let some st := fk.actionStmt t child key new.isSome | continue
      if ctx.level ≥ triggerDepthLimit then Run.fail "too many levels of trigger recursion"
      let frames := new.toList.map (fun r => t.triggerFrame "new" r.rowid r.values) ++
        [t.triggerFrame "old" old.rowid old.values]
      let inner : Context :=
        { ctx with override := some .abort, frames, nested := true, level := ctx.level + 1 }
      let go ← if new.isSome then do
          pure ((← evalIn inner.scope (ForeignKey.actionWhen t key)).truth == some true)
        else pure true
      if go then
        asProgram do
          execStmt n inner st
          settleCount

end

/-- How deeply statements may nest: a trigger program or a foreign key's
action takes a few steps of it, and they nest at most to the limit. -/
def Catalog.depth (c : Catalog) : Nat := 8 * (triggerDepthLimit + c.triggers.length + 2)

/-- Runs a statement with parameters, leaving out the checks of new rows
against the foreign keys `unchecked` names; it fails when it leaves a breach
of an immediate foreign key. -/
def Database.run (st : Stmt) (params : Array Value) (unchecked : List (String × ForeignKey)) : Run Unit := do
  let depth := (← get).catalog.depth
  modify fun db => { db with fkImmediate := 0, counted := 0 }
  execStmt depth { params, unchecked } st
  if (← get).fkImmediate > 0 then Run.fail "FOREIGN KEY constraint failed"
  settleCount

end Sql
end PowChain
