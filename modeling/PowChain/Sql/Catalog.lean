import PowChain.Sql.Parser

/-!
# The catalog of a database

What the schema's statements make of a database: its tables, their indexes,
its views and its triggers.

* A column's declared type gives its affinity (`Affinity.ofType`); a type
  that is exactly one of `ANY`, `BLOB`, `INT`, `INTEGER`, `REAL` or `TEXT`,
  quotes taken off, is a standard type, which a `STRICT` table enforces.
* A table's primary key that is a single column of the standard type
  `INTEGER`, not declared `DESC` on the column itself, is the rowid under
  another name.  Every other primary key, and every `UNIQUE` constraint, has
  an index of its own, named `sqlite_autoindex_<table>_<n>` with `n` counting
  the table's indexes so far; a constraint on the same columns with the same
  collations as an earlier one makes no new index.  A table `WITHOUT ROWID`
  keeps its rows in the index of its primary key, which is the table itself.
* Index entries hold the indexed terms, then the rowid, or for a table
  without rowid the columns of its primary key that the index lacks.
* A view's columns are named by its own list, or by its query's aliases,
  column names and expression texts.

A schema statement that cannot be read makes the schema malformed, naming
the object: `malformed database schema (<name>) - <reason>`.
-/

namespace PowChain
namespace Sql

/-- An object as a row of the schema lists it. -/
structure SchemaObject where
  kind : String
  name : String
  table : String
  root : Nat
  sql : Option String
  deriving DecidableEq

/-- Whether two names are the same without regard to ASCII case. -/
def sameName (a b : String) : Bool := a.toLower == b.toLower

/-- The standard types a `STRICT` table knows. -/
inductive StdType where
  | any
  | blob
  | int
  | integer
  | real
  | text
  deriving DecidableEq, Repr

/-- The name of a standard type, as errors give it. -/
def StdType.name : StdType → String
  | .any => "ANY"
  | .blob => "BLOB"
  | .int => "INT"
  | .integer => "INTEGER"
  | .real => "REAL"
  | .text => "TEXT"

/-- A type text with its quotes taken off, when it is one quoted word. -/
def dequote (t : String) : String :=
  match t.toList with
  | c :: rest =>
    let close := if c == '[' then ']' else c
    if (c == '"' || c == '\'' || c.toNat == 96 || c == '[') && rest.getLast? == some close &&
        !(rest.dropLast.any fun d => d == '"' || d == '\'' || d.toNat == 96 || d == ']') then
      String.ofList rest.dropLast
    else t
  | [] => t

/-- The standard type a declared type is, if any. -/
def StdType.ofText (t : String) : Option StdType :=
  let u := (dequote t).toUpper
  if u == "ANY" then some .any
  else if u == "BLOB" then some .blob
  else if u == "INT" then some .int
  else if u == "INTEGER" then some .integer
  else if u == "REAL" then some .real
  else if u == "TEXT" then some .text
  else none

/-- The affinity of a standard type. -/
def StdType.affinity : StdType → Affinity
  | .any => .numeric
  | .blob => .blob
  | .int | .integer => .integer
  | .real => .real
  | .text => .text

/-- A column of a table. -/
structure Column where
  name : String
  typeText : String
  stdType : Option StdType
  affinity : Affinity
  collation : Collation
  /-- Whether the column may not be null, and the constraint's resolution. -/
  notNull : Option (Option Conflict)
  default : Option Expr
  /-- A computed column's expression, and whether it is stored. -/
  generated : Option (Expr × Bool)

/-- A term of an index: a column, or an expression. -/
inductive KeyTerm where
  | column (i : Nat)
  | expr (e : Expr)

/-- A term of an index, with its collation and direction. -/
structure KeyPart where
  term : KeyTerm
  collation : Collation
  descending : Bool

/-- An index of a table. -/
structure Index where
  name : String
  root : Nat
  unique : Bool
  parts : List KeyPart
  filter : Option Expr := none
  /-- How breaking the index's uniqueness is resolved, if its constraint says. -/
  conflict : Option Conflict := none
  primary : Bool := false
  /-- Whether the index was made by a constraint of the table. -/
  automatic : Bool := false

/-- A foreign key of a table: its referring columns must match a row of the
parent, unless one of them is null. -/
structure ForeignKey where
  /-- The referring columns, by position. -/
  columns : List Nat
  parent : String
  /-- The parent's columns as named; none means the parent's primary key. -/
  parentColumns : List String
  onDelete : FkAction
  onUpdate : FkAction
  deferred : Bool
  deriving BEq

/-- A table. -/
structure Table where
  name : String
  root : Nat
  columns : List Column
  /-- The column that is the rowid under another name. -/
  rowidAlias : Option Nat
  /-- How a clash of rowids is resolved, if the primary key says. -/
  rowidConflict : Option Conflict
  withoutRowid : Bool
  strict : Bool
  checks : List Check
  /-- The indexes, oldest first; for a table without rowid, its primary key first. -/
  indexes : List Index
  /-- The foreign keys, in the order they are declared. -/
  foreignKeys : List ForeignKey := []

/-- A view. -/
structure View where
  name : String
  columns : Option (List String)
  query : Query

/-- A trigger. -/
structure Trigger where
  name : String
  table : String
  timing : Timing
  event : Event
  when : Option Expr
  body : List Stmt

/-- Everything a database's schema makes. -/
structure Catalog where
  tables : List Table := []
  views : List View := []
  triggers : List Trigger := []
  /-- Objects named in the schema that the catalog keeps no more of. -/
  others : List SchemaObject := []

namespace Table

/-- The position of the column named `n`. -/
def columnIndex (t : Table) (n : String) : Option Nat :=
  t.columns.findIdx? fun c => sameName c.name n

/-- The primary key of a table without rowid. -/
def primaryKey (t : Table) : Option Index := t.indexes.find? (·.primary)

/-- The columns a table's rows are ordered by: the rowid's stand-in is none;
for a table without rowid, its primary key's columns. -/
def keyColumns (t : Table) : List Nat :=
  match t.primaryKey with
  | some pk => pk.parts.filterMap fun p => match p.term with
    | .column i => some i
    | .expr _ => none
  | none => []

end Table

namespace Catalog

def table? (c : Catalog) (n : String) : Option Table := c.tables.find? fun t => sameName t.name n

def view? (c : Catalog) (n : String) : Option View := c.views.find? fun v => sameName v.name n

/-- The triggers on a table or view, newest first, the order they fire in. -/
def triggersOn (c : Catalog) (n : String) : List Trigger :=
  (c.triggers.filter fun t => sameName t.table n).reverse

end Catalog

/-! ## Building the catalog -/

/-- A column of a declaration, with its standard type and affinity. -/
def Column.ofSpec (strict : Bool) (c : ColumnSpec) : Column :=
  let std := StdType.ofText c.typeText
  let affinity := match std with
    | some .any => if strict then .blob else .numeric
    | some s => s.affinity
    | none => Affinity.ofType (dequote c.typeText)
  { name := c.name, typeText := dequote c.typeText, stdType := std, affinity,
    collation := (c.collation.bind Collation.ofName?).getD .binary,
    notNull := c.notNull, default := c.default, generated := c.generated }

/-- The key part of an indexed column, given the table's columns. -/
def keyPart (cols : List Column) (ic : IndexedColumn) : KeyPart :=
  let term := match ic.expr with
    | .column none n _ =>
      match cols.findIdx? fun c => sameName c.name n with
      | some i => KeyTerm.column i
      | none => .expr ic.expr
    | e => .expr e
  let base := match term with
    | .column i => ((cols[i]?).map (·.collation)).getD .binary
    | .expr _ => .binary
  { term, collation := (ic.collation.bind Collation.ofName?).getD base, descending := ic.descending }

/-- Whether two indexes have the same terms and collations. -/
def sameParts (a b : List KeyPart) : Bool :=
  a.length == b.length && (a.zip b).all fun (x, y) =>
    x.collation == y.collation && match x.term, y.term with
      | .column i, .column j => i == j
      | _, _ => false

/-- Adds a constraint's index unless an equal one exists; the number in a
new index's name counts the indexes so far. -/
def addKeyIndex (table : String) (primary : Bool) (conflict : Option Conflict) (parts : List KeyPart)
    (idxs : List Index) : List Index :=
  match idxs.find? fun i => sameParts i.parts parts with
  | some _ =>
    idxs.map fun i => if sameParts i.parts parts then
      { i with primary := i.primary || primary, conflict := i.conflict.orElse fun _ => conflict } else i
  | none =>
    idxs ++ [{ name := s!"sqlite_autoindex_{table}_{idxs.length + 1}", root := 0, unique := true,
               parts, conflict, primary, automatic := true }]

/-- A table from its declaration; roots are filled in later. -/
def Table.ofSpec (spec : TableSpec) (root : Nat) : Except String Table := do
  let specs := spec.parts.filterMap fun p => match p with
    | .column c => some c
    | _ => none
  let cols := specs.map (Column.ofSpec spec.strict)
  if spec.strict then
    for c in specs, col in cols do
      if col.stdType.isNone then
        if c.typeText.isEmpty then throw s!"missing datatype for {spec.name}.{c.name}"
        else
          let t := c.typeText
          throw s!"unknown datatype for {spec.name}.{c.name}: \"{t}\""
  -- the single-column primary key that is the rowid under another name
  let columnKeys := (specs.zip (List.range specs.length)).filterMap fun (c, i) =>
    c.primaryKey.map fun (desc, conflict, _) => (i, desc, conflict)
  let tableKeys := spec.parts.filterMap fun p => match p with
    | .key k => if k.primary then some k else none
    | _ => none
  if columnKeys.length + tableKeys.length > 1 then
    throw s!"table \"{spec.name}\" has more than one primary key"
  let aliasOf : Option (Nat × Option Conflict) :=
    match columnKeys, tableKeys with
    | [(i, desc, conflict)], [] =>
      if ((cols[i]?).bind (·.stdType)) == some .integer && !desc then some (i, conflict) else none
    | [], [k] =>
      match k.columns.map (keyPart cols) with
      | [⟨.column i, _, _⟩] =>
        if ((cols[i]?).bind (·.stdType)) == some .integer then some (i, k.conflict) else none
      | _ => none
    | _, _ => none
  -- the columns of the primary key are NOT NULL in a table without rowids,
  -- and in a strict table unless the key is the rowid
  let keyColumns := columnKeys.map (·.1) ++ tableKeys.flatMap fun k =>
    (k.columns.map (keyPart cols)).filterMap fun part => match part.term with
      | .column i => some i
      | .expr _ => none
  let forced (i : Nat) : Bool :=
    keyColumns.contains i && (spec.withoutRowid || (spec.strict && (aliasOf.map (·.1)) != some i))
  let cols := (cols.zip (List.range cols.length)).map fun (c, i) =>
    if forced i && c.notNull.isNone then { c with notNull := some none } else c
  -- the indexes the constraints make, in the order the statement names them
  let mut idxs : List Index := []
  let mut colPos := 0
  for p in spec.parts do
    match p with
    | .column c =>
      let here : KeyPart := { term := .column colPos, collation := ((cols[colPos]?).map (·.collation)).getD .binary,
                              descending := false }
      for u in c.unique.take c.uniqueFirst do
        idxs := addKeyIndex spec.name false u [here] idxs
      if let some (desc, conflict, _) := c.primaryKey then
        let isAlias := (aliasOf.map (·.1)) == some colPos
        if !isAlias then
          idxs := addKeyIndex spec.name true conflict [{ here with descending := desc }] idxs
      for u in c.unique.drop c.uniqueFirst do
        idxs := addKeyIndex spec.name false u [here] idxs
      colPos := colPos + 1
    | .key k =>
      let parts := k.columns.map (keyPart cols)
      let isAlias := k.primary && aliasOf.isSome
      if !isAlias then
        idxs := addKeyIndex spec.name k.primary k.conflict parts idxs
    | _ => pure ()
  let checks := (specs.flatMap (·.checks)) ++ spec.parts.filterMap fun p => match p with
    | .check c => some c
    | _ => none
  -- foreign keys, whose referring columns must all be columns of the table
  let fkSpecs := spec.parts.flatMap fun p => match p with
    | .column c => c.references
    | .foreignKey k => [k]
    | _ => []
  let foreignKeys := fkSpecs.filterMap fun k =>
    let cols := k.columns.filterMap fun n => cols.findIdx? fun c => sameName c.name n
    if cols.length != k.columns.length then none
    else some { columns := cols, parent := k.parent, parentColumns := k.parentColumns,
                onDelete := k.onDelete, onUpdate := k.onUpdate, deferred := k.deferred : ForeignKey }
  if spec.withoutRowid then
    -- the primary key is the table; a would-be rowid key becomes an index too
    let keyed : List Index := match aliasOf with
      | some (i, conflict) =>
        addKeyIndex spec.name true conflict
          [{ term := .column i, collation := ((cols[i]?).map Column.collation).getD .binary, descending := false }] idxs
      | none => idxs
    match keyed.find? Index.primary with
    | none => throw s!"PRIMARY KEY missing on table {spec.name}"
    | some pk =>
      let pk := { pk with root := root }
      pure { name := spec.name, root, columns := cols, rowidAlias := none, rowidConflict := none,
             withoutRowid := true, strict := spec.strict, checks,
             indexes := pk :: keyed.filter fun i => !i.primary, foreignKeys }
  else
    pure { name := spec.name, root, columns := cols, rowidAlias := aliasOf.map (·.1),
           rowidConflict := (aliasOf.bind (·.2)), withoutRowid := false, strict := spec.strict,
           checks, indexes := idxs, foreignKeys }

/-- An explicit index of a table. -/
def Index.ofSpec (t : Table) (spec : IndexSpec) (root : Nat) : Index :=
  { name := spec.name, root, unique := spec.unique, parts := spec.columns.map (keyPart t.columns),
    filter := spec.filter }

/-- The message of a schema that cannot be read. -/
def malformedSchema (name reason : String) : String := s!"malformed database schema ({name}) - {reason}"

/-- The catalog a schema's objects make, in the order they are listed. -/
def Catalog.build (objs : List SchemaObject) : Except String Catalog := do
  let mut cat : Catalog := {}
  let mut autos : List SchemaObject := []
  for o in objs do
    match o.sql with
    | none => autos := autos ++ [o]
    | some sql =>
      match parseCreate sql with
      | .error e => throw (malformedSchema o.name e)
      | .ok (.table spec) =>
        match Table.ofSpec spec o.root with
        | .ok t =>
          if let some place := spec.paramPlace then
            throw (malformedSchema o.name s!"parameters prohibited in {place}")
          cat := { cat with tables := cat.tables ++ [t] }
        | .error e => throw (malformedSchema o.name e)
      | .ok (.index spec) =>
        match cat.table? spec.table with
        | some t =>
          if let some place := spec.paramPlace then
            throw (malformedSchema o.name s!"parameters prohibited in {place}")
          let i := Index.ofSpec t spec o.root
          let add (t' : Table) : Table :=
            if sameName t'.name t.name then { t' with indexes := t'.indexes ++ [i] } else t'
          cat := { cat with tables := cat.tables.map add }
        | none => throw (malformedSchema o.name s!"no such table: main.{spec.table}")
      | .ok (.view spec) =>
        cat := { cat with views := cat.views ++ [{ name := spec.name, columns := spec.columns, query := spec.query }] }
      | .ok (.trigger spec) =>
        cat := { cat with triggers := cat.triggers ++
          [{ name := spec.name, table := spec.table, timing := spec.timing, event := spec.event,
             when := spec.when, body := spec.body }] }
  -- the roots of the indexes the constraints made
  for o in autos do
    let found := cat.tables.any fun t => t.indexes.any fun i => i.automatic && sameName i.name o.name
    if found then
      let place (i : Index) : Index :=
        if i.automatic && sameName i.name o.name then { i with root := o.root } else i
      cat := { cat with tables := cat.tables.map fun t => { t with indexes := t.indexes.map place } }
    else cat := { cat with others := cat.others ++ [o] }
  pure cat

end Sql
end PowChain
