import PowChain.PageFile.Build
import PowChain.Store.Statements

/-!
# Stores kept in database files

A store file is a database whose table, or view, `kv` holds the entries
(`KvTable`).  Opening a store file makes the table when the database lacks
it, in a database of 4096-byte pages when the file is empty; a database that
already has a table or view of that name is left untouched, and one with an
index of that name cannot be opened.

An open file keeps the schema it last read, with the schema cookie of the
header, and every statement meets the file as it is then:

* a statement is prepared against the schema it keeps; when that fails and
  the file's cookie moved, the schema is read again and the statement
  prepared against it;
* running it reads the file: a file that is not a database, or is
  malformed, fails it; a write fails when the header forbids writing or the
  free list is broken; a moved cookie makes it read the schema again and
  prepare once more;
* the rows are read with that schema: a record keeps every column but the
  virtual ones, the rowid's stand-in as a null, a table without rowid its
  key's columns first; texts are kept in the file's encoding;
* a file that was removed or replaced since it was opened refuses the first
  row a statement would change.

A commit that changed rows writes every table it changed afresh, with all
of the table's indexes.
-/

namespace PowChain
namespace StoreFile

open PageFile
open Sql (Value Database Catalog Table Index Row SchemaObject sameName)

/-- The schema as a connection read it: the schema cookie and the objects. -/
structure SchemaCache where
  cookie : Nat := 0
  objects : List SchemaObject := []
  deriving DecidableEq

/-- A store file as an open connection sees it. -/
structure Handle where
  bytes : ByteArray
  cache : SchemaCache
  /-- Whether the file was removed or replaced since it was opened. -/
  moved : Bool
  /-- Whether the bytes were written since they were read. -/
  dirty : Bool := false
  /-- The counts of changes and the last rowid the connection keeps. -/
  session : Sql.Session := {}

/-- The object a schema row describes. -/
def SchemaEntry.toObject (e : SchemaEntry) : SchemaObject :=
  { kind := e.kind, name := e.name, table := e.tableName, root := e.rootPage, sql := e.sql }

/-- The schema of an image. -/
def schemaOf (img : Image) : Except Fault SchemaCache := do
  pure { cookie := img.schemaCookie, objects := (← img.schema).map SchemaEntry.toObject }

/-- The image of a file's bytes: an empty file is an empty database. -/
def imageOf (bytes : ByteArray) : Except Fault Image := do
  match ← Image.ofBytes bytes with
  | some img => pure img
  | none => pure Image.fresh

/-- The catalog of a schema. -/
def catalogOf (c : SchemaCache) : Except String Catalog := Catalog.build c.objects

/-- A fault as a message. -/
def faultText {α : Type} (r : Except Fault α) : Except String α :=
  match r with
  | .ok a => .ok a
  | .error f => .error f.message

/-! ## Rows in records -/

/-- The columns a record keeps, in order: a table without rowid keeps its
key's columns first; virtual columns are not kept. -/
def recordColumns (t : Table) : List Nat :=
  let stored := (List.range t.columns.length).filter fun i =>
    match (t.columns[i]?).bind (·.generated) with
    | some (_, kept) => kept
    | none => true
  if t.withoutRowid then
    let key := t.keyColumns
    key ++ stored.filter fun i => !key.contains i
  else stored

/-- The value of a column that a short record lacks: its default, when that
is a literal. -/
def missingValue (c : Sql.Column) : Value :=
  match c.default with
  | some (.lit v) => v
  | _ => .null

/-- A row from its rowid and its record's values. -/
def rowOf (t : Table) (rowid : Int) (vs : List Value) : Row :=
  let order := recordColumns t
  let values := (List.range t.columns.length).map fun i =>
    if t.rowidAlias == some i then .int rowid
    else
      match order.findIdx? (· == i) with
      | some j =>
        match vs[j]? with
        | some v =>
          -- a whole real is kept as an integer and read back as a real
          match v, (t.columns[i]?).map (·.affinity) with
          | .int k, some Sql.Affinity.real => Value.real (Sql.realOfInt k)
          | w, _ => w
        | none => ((t.columns[i]?).map missingValue).getD .null
      | none => .null
  { rowid, values := values.toArray }

/-- The rows of a table, in its order. -/
def tableRows (img : Image) (t : Table) : Except Fault (List Row) := do
  let enc := Sql.Encoding.ofCode img.textEncoding
  if t.withoutRowid then
    let entries ← img.indexEntries t.root
    entries.mapM fun p => match decodeRecord enc p with
      | some vs => pure (rowOf t 0 vs)
      | none => throw .malformed
  else
    let rows ← img.tableRows t.root
    rows.mapM fun (rowid, p) => match decodeRecord enc p with
      | some vs => pure (rowOf t rowid vs)
      | none => throw .malformed

/-- Whether a table has virtual columns. -/
def hasVirtual (t : Table) : Bool :=
  t.columns.any fun c => match c.generated with
    | some (_, kept) => !kept
    | none => false

/-- Computes the virtual columns of every row. -/
def computeVirtual (db : Database) : Database :=
  db.catalog.tables.foldl (fun db t =>
    if !hasVirtual t then db
    else
      let computed := (db.rowsOf t.name).map fun r =>
        match (Sql.computeColumns {} t r).run' db with
        | .ok r' => r'
        | .error _ => r
      { db with rows := db.rows.map fun p => if sameName p.1 t.name then (p.1, computed) else p }) db

/-- The database an image holds, read with a catalog; a table whose pages
cannot be read is kept aside with the reason. -/
def databaseOf (img : Image) (cat : Catalog) (frozen : Option String) : Database :=
  let loaded := cat.tables.map fun t => (t, tableRows img t)
  let rows := loaded.filterMap fun (t, r) => match r with
    | .ok rs => some (t.name, rs)
    | .error _ => none
  let unreadable := loaded.filterMap fun (t, r) => match r with
    | .ok _ => none
    | .error f => some (t.name, f.message)
  computeVirtual { catalog := cat, rows, frozen, unreadable, encoding := Sql.Encoding.ofCode img.textEncoding }

/-! ## Writing tables back -/

/-- The record of a row, its texts in the file's encoding `enc`. -/
def recordOf (t : Table) (enc : Sql.Encoding) (r : Row) : ByteArray :=
  encodeRecord ((recordColumns t).map fun i =>
    if t.rowidAlias == some i then .null else (r.values.getD i .null).inEncoding enc)

/-- Compares index entries term by term, each with its collation and
direction. -/
def compareEntries : List (Sql.Collation × Bool) → List Value → List Value → Ordering
  | ks, a :: as, b :: bs =>
    let (c, desc) := ks.headD (.binary, false)
    let o := Value.compareWith c a b
    let o := if desc then o.swap else o
    if o == .eq then compareEntries ks.tail as bs else o
  | _, [], [] => .eq
  | _, [], _ => .lt
  | _, _, [] => .gt

/-- The entries of an index, in its order, as records: the indexed terms,
then the rowid, or the key columns of a table without rowid that the index
lacks. -/
def indexRecords (db : Database) (t : Table) (i : Index) (enc : Sql.Encoding) : List ByteArray :=
  let own := i.parts.filterMap fun p => match p.term with
    | .column j => some (j, p.collation)
    | .expr _ => none
  let pkParts := (t.primaryKey.map (·.parts)).getD []
  -- a key column counts as present only with the same collation
  let tailParts := if t.withoutRowid then
      pkParts.filter fun p => match p.term with
        | .column j => !own.contains (j, p.collation)
        | .expr _ => false
    else []
  let tailOf (r : Row) : List Value :=
    if t.withoutRowid then tailParts.map fun p => match p.term with
      | .column j => r.values.getD j .null
      | .expr _ => .null
    else [.int r.rowid]
  let dirs := i.parts.map (fun p => (p.collation, p.descending)) ++
    (if t.withoutRowid then tailParts.map fun p => (p.collation, p.descending) else [(.binary, false)])
  let keyed := (db.rowsOf t.name).filterMap fun r =>
    let entry : Sql.Run (Option (List Value)) := do
      if !(← Sql.inIndex {} t i r) then return none
      pure (some (← Sql.indexKey {} t i r))
    match entry.run' db with
    | .ok (some k) => some (k ++ tailOf r)
    | _ => none
  (keyed.mergeSort fun a b => compareEntries dirs a b != .gt).map fun vs =>
    encodeRecord (vs.map (·.inEncoding enc))

/-- Writes the tables a database changed, with their indexes, freeing their
old pages. -/
def rewrite (img : Image) (db : Database) : Except Fault Image := do
  let enc := Sql.Encoding.ofCode img.textEncoding
  let tables := db.catalog.tables.filter fun t => db.changed.any (sameName · t.name)
  let roots := tables.flatMap fun t => t.root :: ((t.indexes.filter fun i => i.root != t.root && i.root != 0).map (·.root))
  let old ← roots.mapM img.treePages
  img.write do
    Draft.release (old.flatMap (·.drop 1))
    for t in tables do
      let rows := db.rowsOf t.name
      if t.withoutRowid then writeIndex t.root (rows.map (recordOf t enc))
      else writeTable t.root (rows.map fun r => (r.rowid, recordOf t enc r))
      for i in t.indexes do
        if i.root != t.root && i.root != 0 then writeIndex i.root (indexRecords db t i enc)

/-! ## Statements on the file -/

/-- Prepares a statement against the kept schema; when that fails and the
file's schema cookie moved, against the file's schema.  The schema it was
prepared with. -/
def Handle.prepareWith (h : Handle) (prep : Catalog → Option String) : Except String SchemaCache :=
  let retry (m : String) : Except String SchemaCache :=
    match imageOf h.bytes >>= schemaOf with
    | .ok fs =>
      if fs.cookie != h.cache.cookie then
        match catalogOf fs with
        | .error e => .error e
        | .ok cat =>
          match prep cat with
          | some m' => .error m'
          | none => .ok fs
      else .error m
    | .error _ => .error m
  match catalogOf h.cache with
  | .error e => retry e
  | .ok cat =>
    match prep cat with
    | some m => retry m
    | none => .ok h.cache

/-- What a statement runs on: the schema, the image and the database; the
schema is read again when the file's cookie moved. -/
def Handle.stepWith (h : Handle) (cache : SchemaCache) (prep : Catalog → Option String) (writes : Bool) :
    Except String (SchemaCache × Image × Database) := do
  let img ← faultText (imageOf h.bytes)
  if writes then
    if img.readOnly then throw Fault.readOnly.message
    if let .error f := img.freePages then throw f.message
  let fs ← faultText (schemaOf img)
  let cache ← if fs.cookie != cache.cookie then do
      let cat ← catalogOf fs
      if let some m := prep cat then throw m
      pure fs
    else pure cache
  let cat ← catalogOf cache
  let frozen := if h.moved then some Fault.readOnly.message else none
  pure (cache, img, { databaseOf img cat frozen with session := h.session })

/-- The first row the lookup of a key gives: its value and the name of its
column. -/
def Handle.lookup (h : Handle) (k : ByteArray) : Except String (Option (Value × String)) := do
  let cache ← h.prepareWith KvTable.prepareLookup
  let (_, _, db) ← h.stepWith cache KvTable.prepareLookup false
  KvTable.lookup db k

/-- How a scan fails: while it is prepared, or while its rows are read. -/
inductive ScanFailure where
  | prepare (message : String)
  | read (message : String)

/-- The rows of the scan from a key on, with the names of its two columns. -/
def Handle.scan (h : Handle) (p : ByteArray) :
    Except ScanFailure (List (Value × Value) × String × String) :=
  match h.prepareWith KvTable.prepareScan with
  | .error m => .error (.prepare m)
  | .ok cache =>
    match h.stepWith cache KvTable.prepareScan false >>= fun (_, _, db) => KvTable.scan db p with
    | .error m => .error (.read m)
    | .ok r => .ok r

/-- The database after a batch of writes, applied in key order, with the
schema and the image it ran on; none for an empty batch. -/
def Handle.runBatch (h : Handle) (batch : Batch) : Except String (Option (SchemaCache × Image × Database)) := do
  let prepOf (op : Option ByteArray) : Catalog → Option String :=
    if op.isSome then KvTable.prepareWrite else KvTable.prepareDelete
  let runOne (db : Database) (k : ByteArray) (op : Option ByteArray) : Except String Database :=
    match op with
    | some v => KvTable.write db k v
    | none => KvTable.delete db k
  match Batch.ordered batch with
  | [] => pure none
  | (k0, op0) :: rest =>
    let cache ← h.prepareWith (prepOf op0)
    let (cache, img, db0) ← h.stepWith cache (prepOf op0) true
    let cat ← catalogOf cache
    let mut db ← runOne db0 k0 op0
    for (k, op) in rest do
      if let some m := prepOf op cat then throw m
      db ← runOne db k op
    pure (some (cache, img, db))

/-- How a batch of writes fails: in a write, or in the commit that ends
them. -/
inductive WriteFailure where
  | write (message : String)
  | commit (message : String)

/-- The file after a batch of writes, applied in key order as one
transaction; a failure leaves the file as it was.  The commit fails while a
deferred foreign key is broken. -/
def Handle.apply (h : Handle) (batch : Batch) : Except WriteFailure Handle :=
  match h.runBatch batch with
  | .error m => .error (.write m)
  | .ok none => .ok h
  | .ok (some (cache, img, db)) =>
    if db.fkDeferred > 0 then .error (.commit "FOREIGN KEY constraint failed")
    else if db.changed.isEmpty then .ok { h with cache, session := db.session }
    else
      match faultText (rewrite img db) with
      | .ok img' => .ok { h with bytes := img'.toBytes, cache, dirty := true, session := db.session }
      | .error m => .error (.write m)

/-- The schema a file holds now, if it can be read. -/
def Handle.currentSchema (h : Handle) : Option SchemaCache :=
  (imageOf h.bytes >>= schemaOf).toOption

/-! ## Opening a file -/

/-- The statement the table is made with, as the schema keeps it. -/
def tableStatement : String :=
  "CREATE TABLE kv (\n                key BLOB PRIMARY KEY,\n                value BLOB NOT NULL\n            )"

/-- Makes the table in a database that lacks it: a root page for the table
and one for the index of its key, two schema rows, and a new schema
cookie. -/
def addTable (img : Image) : Except Fault Image := do
  if img.readOnly then throw .readOnly
  let schemaRows ← img.tableRows 1
  let schemaPages ← img.treePages 1
  let enc := img.textEncoding
  let next := (schemaRows.foldl (fun m r => max m r.1) 0) + 1
  img.write do
    let tableRoot ← Draft.allocate
    let indexRoot ← Draft.allocate
    let d ← get
    let blank (k : PageKind) := assemble d.img.pageSize d.img.usable ByteArray.empty k [] 0
    Draft.writePage tableRoot (blank .tableLeaf)
    Draft.writePage indexRoot (blank .indexLeaf)
    let table : SchemaEntry :=
      { rowid := next, name := KvTable.name, tableName := KvTable.name, rootPage := tableRoot,
        sql := some tableStatement, kind := "table" }
    let index : SchemaEntry :=
      { rowid := next + 1, name := "sqlite_autoindex_" ++ KvTable.name ++ "_1",
        tableName := KvTable.name, rootPage := indexRoot, sql := none, kind := "index" }
    Draft.release (schemaPages.drop 1)
    writeTable 1 (schemaRows ++ [(next, table.record enc), (next + 1, index.record enc)])
    Draft.setField 40 (img.schemaCookie + 1)
    if img.schemaFormat == 0 then
      Draft.setField 44 4
      Draft.setField 56 1

/-- Opens a store file: the new bytes when the table had to be made, and the
schema the connection read. -/
def prepare (bytes : ByteArray) : Except String (Option ByteArray × SchemaCache) := do
  let img ← faultText (imageOf bytes)
  let fs ← faultText (schemaOf img)
  let cat ← catalogOf fs
  if (cat.table? KvTable.name).isSome || (cat.view? KvTable.name).isSome then return (none, fs)
  if fs.objects.any fun o => o.kind == "index" && sameName o.name KvTable.name then
    throw s!"there is already an index named {KvTable.name}"
  let img' ← faultText (addTable img)
  pure (some img'.toBytes, ← faultText (schemaOf img'))

end StoreFile
end PowChain
