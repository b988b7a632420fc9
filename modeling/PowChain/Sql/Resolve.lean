import PowChain.Sql.Exec

/-!
# Preparing statements

Before a statement runs it is prepared against the schema: every table it
names must exist, every column name must name a column of a table in
reach, and every function must be known and take as many arguments as it
is given.  Preparing a statement that changes rows also prepares, once
each, every trigger that the change could fire — its `WHEN` clause, then
its statements, and in turn the triggers those could fire — whether or
not any row is changed when it runs.  A view a statement reads is
prepared too.

Which problem a statement reports is settled as follows.

* Within one expression, an unknown column or a misused aggregate ends
  the walk; an unknown function, or a wrong count of arguments, is noted
  and the walk goes on, a later problem taking its place.  A call's
  arguments are walked after its name, a subquery before the operand of
  its `IN`, and the pattern of a `LIKE` before its subject.
* A list of expressions stops at the first one with a problem.
* A query resolves its source, then its result columns, `HAVING`, `WHERE`,
  `ORDER BY` and `GROUP BY`.  An aggregate in the `WHERE` of an aggregate
  query is found only after all of these.
* An `INSERT` checks its target, its column list, its rows and their
  widths; an `UPDATE` checks each assignment's value before its column,
  then its `WHERE`; a `DELETE` its target, then its `WHERE`.  A view that
  is the target of a change without an `INSTEAD OF` trigger fails before
  any of these.  Triggers come last: those that run before the change
  first, then those that run after it, in the order the schema lists them
  for their table.

A statement of the schema, a view's query or a trigger's statement, names
its tables with the database they belong to: `no such table: main.log`.
-/

namespace PowChain
namespace Sql

/-- A source of rows as a statement's names see it. -/
structure NameFrame where
  label : String
  columns : List String
  rowid : Bool := false
  /-- Whether the source is seen only through its label, as `NEW` and `OLD` are. -/
  named : Bool := false
  /-- Columns only a qualified name reaches: the right side's copies of the
  columns a join matches by name. -/
  hidden : List String := []

/-- What the names of one query reach: its sources, and the aliases of its
result columns where they may stand, each with whether it stands for an
aggregate. -/
structure NameLevel where
  frames : List NameFrame
  aliases : List (String × Bool) := []

/-- A table a `WITH` clause names, as a statement being prepared sees it. -/
inductive CteName where
  /-- Its query, prepared where it is read. -/
  | defined (c : Cte)
  /-- A recursive table inside its own query, with its columns. -/
  | fixed (name : String) (columns : List String)

/-- The name of a table a `WITH` clause names. -/
def CteName.name : CteName → String
  | .defined (.mk n _ _) => n
  | .fixed n _ => n

/-- What the names of a statement being prepared may refer to. -/
structure NameScope where
  catalog : Catalog
  /-- What the names of each enclosing query reach, the innermost first. -/
  levels : List NameLevel := []
  /-- The rows a trigger sees: `NEW`, `OLD`. -/
  rows : List NameFrame := []
  /-- Whether the statement comes from the schema. -/
  fromSchema : Bool := false
  /-- The views being expanded, to find a view defined through itself. -/
  expanding : List String := []
  /-- The tables of the `WITH` clauses around, the innermost first. -/
  ctes : List CteName := []

/-- A problem met while walking an expression. -/
inductive Issue where
  /-- A problem the walk goes on after; a later one takes its place. -/
  | soft (message : String)
  /-- A problem that ends the walk. -/
  | hard (message : String)
  /-- A problem found only when the statement is compiled, after every
  name has been resolved: it stands only when the walk found no other. -/
  | late (message : String)

/-- The message that stands after a walk's problems other than the late
ones. -/
def settleEarly : List Issue → Option String
  | [] => none
  | .hard m :: _ => some m
  | .soft m :: rest => (settleEarly rest).orElse fun _ => some m
  | .late _ :: rest => settleEarly rest

/-- The message that stands after a walk's problems, met in order. -/
def settle (issues : List Issue) : Option String :=
  (settleEarly issues).orElse fun _ =>
    (issues.filterMap fun i => match i with
      | .late m => some m
      | _ => none).getLast?

/-- How deeply queries and expressions may nest while they are prepared. -/
def prepareFuel : Nat := 1024

/-- The message for a table that does not exist. -/
def NameScope.noSuchTable (sc : NameScope) (name : String) : String :=
  if sc.fromSchema then s!"no such table: main.{name}" else s!"no such table: {name}"

/-- The problems of a name within one query's reach: `none` when it
reaches nothing there.  A name two sources have is ambiguous; an
unqualified name no source has may be an alias. -/
def NameLevel.resolve (lv : NameLevel) (agg : Bool) (q : Option String) (name : String) : Option (List Issue) :=
  let visible (f : NameFrame) : Bool := match q with
    | some l => sameName l f.label
    | none => !f.named
  let columns := lv.frames.filter fun f =>
    visible f && f.columns.any (sameName · name) && !(q.isNone && f.hidden.any (sameName · name))
  let rowids := lv.frames.filter fun f => visible f && f.rowid && isRowidName name
  let shown := match q with
    | some l => s!"{l}.{name}"
    | none => name
  if columns.length > 1 || (columns.isEmpty && rowids.length > 1) then
    some [.hard s!"ambiguous column name: {shown}"]
  else if !columns.isEmpty || !rowids.isEmpty then some []
  else if q.isSome then none
  else
    (lv.aliases.find? fun a => sameName a.1 name).map fun (_, isAgg) =>
      if isAgg && !agg then [.hard s!"misuse of aliased aggregate {name}"] else []

/-- The problems of a column name: none when a source in reach has the
column; a name in double quotes that names no column is a string. -/
def NameScope.lookup (sc : NameScope) (agg : Bool) (q : Option String) (name : String) (quoted : Bool) : List Issue :=
  match sc.levels.findSome? (·.resolve agg q name) with
  | some issues => issues
  | none =>
    let has (f : NameFrame) : Bool :=
      q.any (sameName · f.label) && (f.columns.any (sameName · name) || (f.rowid && isRowidName name))
    if sc.rows.any has then []
    else if quoted && q.isNone then []
    else if q.isNone && (trueFalseValue name).isSome then []
    else [.hard (noSuchColumn q name)]

/-- The name a result column gets: its alias, the name of the column it
reads, or its text. -/
def NameScope.columnName (sc : NameScope) (e : Expr) (given : Option String) (text : String) : String :=
  match given with
  | some a => a
  | none =>
    match (peelCollate e).1 with
    | .column q n _ =>
      let visible (f : NameFrame) : Bool := match q with
        | some l => sameName l f.label
        | none => !f.named
      let found := sc.levels.findSome? fun lv => lv.frames.findSome? fun f =>
        if visible f then f.columns.find? (sameName · n) else none
      found.getD n
    | _ => text

/-- Whether an expression is a number written with a point or an
exponent, of at most 1: the constant `likelihood` takes. -/
def isProbability : Expr → Bool
  | .num t =>
    let lower := t.toLower
    !lower.startsWith "0x" && (t.contains '.' || lower.contains 'e') &&
      (Float.ofBits (readReal t.toUTF8).2) ≤ 1.0
  | _ => false

/-- The functions that only a statement written directly may call, not
one the schema holds. -/
def directOnly (name : String) : Bool := ["load_extension", "fts3_tokenizer"].contains name

/-- The functions that need a window, which this engine never gives them. -/
def isWindowFunction (name : String) : Bool :=
  ["row_number", "rank", "dense_rank", "percent_rank", "cume_dist", "ntile", "lead", "lag",
    "first_value", "last_value", "nth_value"].contains name

/-- Whether an expression calls an aggregate, outside its subqueries. -/
def hasAggregate (e : Expr) : Bool := !e.aggregates.isEmpty

/-- What a change is made to: a table, or a view with its columns. -/
inductive Target where
  | table (t : Table)
  | view (v : View) (columns : List String)

namespace Target

def name : Target → String
  | .table t => t.name
  | .view v _ => v.name

def columnNames : Target → List String
  | .table t => t.columns.map (·.name)
  | .view _ cs => cs

def hasRowid : Target → Bool
  | .table t => !t.withoutRowid
  | .view _ _ => false

end Target

/-- Whether a view has a trigger that makes a change instead. -/
def Catalog.hasInstead (c : Catalog) (v : View) (change : Change) : Bool :=
  (c.triggersOn v.name).any fun tr => tr.timing == .insteadOf && tr.firesOn change

/-- A result column as preparing a query sees it: its expression, alias
and name. -/
structure NamedItem where
  expr : Expr
  label : Option String
  name : String

/-- A result column's alias and expression. -/
def NamedItem.pair (i : NamedItem) : Option String × Expr := (i.label, i.expr)

/-- The word of a set operation. -/
def SetOp.keyword : SetOp → String
  | .unionAll => "UNION ALL"
  | .union => "UNION"
  | .intersect => "INTERSECT"
  | .except => "EXCEPT"

/-- Whether a select is a `SELECT` rather than a `VALUES` list. -/
def Select.isCore : Select → Bool
  | .core .. => true
  | .values _ => false

/-- The message for selects of a compound query with different numbers of
columns, by the select on the right. -/
def wrongTerms (op : SetOp) : Select → String
  | .values _ => "all VALUES must have the same number of terms"
  | .core .. => s!"SELECTs to the left and right of {op.keyword} do not have the same number of result columns"

/-- The `ON` terms of a source's joins, from the left. -/
def Source.conditions : Source → List Expr
  | .join l _ _ r c _ => l.conditions ++ r.conditions ++ c.toList
  | _ => []

/-- Whether an unqualified name reaches a column of some frame. -/
def framesShow (fs : List NameFrame) (nm : String) : Bool :=
  fs.any fun f => !f.named && f.columns.any (sameName · nm) && !f.hidden.any (sameName · nm)

/-- The columns a natural join matches: those of the right side the left
side shows too, in the right side's order. -/
def sharedColumns (lf rf : List NameFrame) : List String :=
  let names := rf.flatMap fun f => f.columns.filter (framesShow [f] ·)
  let distinct := names.foldl (fun acc nm => if acc.any (sameName · nm) then acc else acc ++ [nm]) []
  distinct.filter (framesShow lf ·)

/-- The result expression an unqualified name in a `GROUP BY` term stands
for: an alias that no source's column shadows. -/
def groupAlias (frames : List NameFrame) (items : List (Expr × Option String × String)) (nm : String) : Option Expr :=
  if framesShow frames nm then none else aliasedItem items (.column none nm false)

mutual

/-- The problems of an expression, in the order the walk meets them;
`aggregates` tells whether an aggregate may stand here. -/
def exprIssues : Nat → NameScope → Bool → Expr → List Issue
  | 0, _, _, _ => [.hard "expression nests too deeply"]
  | n + 1, sc, agg, e =>
    match e with
    | .lit _ | .param _ | .raise _ _ | .sourceColumn _ _ => []
    | .num t => match literalValue t false with
      | .error m => [.late m]
      | .ok _ => []
    | .unary .neg (.num t) => match literalValue t true with
      | .error m => [.late m]
      | .ok _ => []
    | .column q name quoted => sc.lookup agg q name quoted
    | .unary _ a | .cast a _ | .collate a _ => exprIssues n sc agg a
    | .binary _ a b => exprIssues n sc agg a ++ exprIssues n sc agg b
    | .between a lo hi _ => exprIssues n sc agg a ++ exprIssues n sc agg lo ++ exprIssues n sc agg hi
    | .inList a items _ => exprIssues n sc agg a ++ listIssues n sc agg items
    | .inQuery a q _ => subqueryIssues n sc q true ++ exprIssues n sc agg a
    | .rowsExist q => subqueryIssues n sc q false
    | .scalar q => subqueryIssues n sc q true
    | .call name args _ star _ =>
      let count := if star then 0 else args.length
      let lname := name.toLower
      let found := callProblem name count |>.isNone
      let probability :=
        if found && lname == "likelihood" && !isProbability (args.getD 1 (.lit .null)) then
          [Issue.soft s!"second argument to {name}() must be a constant between 0.0 and 1.0"]
        else []
      let restricted := if found && sc.fromSchema && directOnly lname then
          [Issue.soft s!"unsafe use of {name}()"] else []
      let named := match callProblem name count with
        | some m => [Issue.soft m]
        | none => if isWindowFunction lname then [Issue.soft s!"misuse of window function {name}()"] else []
      let named := probability ++ restricted ++ named
      let misuse := if !agg && isAggregate name.toLower args.length star then
          [Issue.hard s!"misuse of aggregate function {name}()"] else []
      named ++ misuse ++ listIssues n sc (agg && !isAggregate name.toLower args.length star) args
    | .caseOf operand arms otherwise =>
      optionIssues n sc agg operand ++ armIssues n sc agg arms ++ optionIssues n sc agg otherwise
    | .like _ a pattern escape _ =>
      exprIssues n sc agg pattern ++ exprIssues n sc agg a ++ optionIssues n sc agg escape

/-- The problems of expressions walked one after another. -/
def listIssues : Nat → NameScope → Bool → List Expr → List Issue
  | 0, _, _, _ => [.hard "expression nests too deeply"]
  | _, _, _, [] => []
  | n + 1, sc, agg, e :: rest => exprIssues n sc agg e ++ listIssues n sc agg rest

def optionIssues : Nat → NameScope → Bool → Option Expr → List Issue
  | 0, _, _, _ => [.hard "expression nests too deeply"]
  | _, _, _, none => []
  | n + 1, sc, agg, some e => exprIssues n sc agg e

def armIssues : Nat → NameScope → Bool → List (Expr × Expr) → List Issue
  | 0, _, _, _ => [.hard "expression nests too deeply"]
  | _, _, _, [] => []
  | n + 1, sc, agg, (w, t) :: rest =>
    exprIssues n sc agg w ++ exprIssues n sc agg t ++ armIssues n sc agg rest

/-- The problems of a subquery inside an expression; one that stands for a
value must give one column. -/
def subqueryIssues : Nat → NameScope → Query → Bool → List Issue
  | 0, _, _, _ => [.hard "query nests too deeply"]
  | n + 1, sc, q, single =>
    match queryNames n sc q with
    | .error m => [.hard m]
    | .ok names =>
      if single && names.length != 1 then
        [.hard s!"sub-select returns {names.length} columns - expected 1"]
      else []

/-- Prepares a query: the names of its result columns, or its problem. -/
def queryNames : Nat → NameScope → Query → Except String (List String)
  | 0, _, _ => .error "query nests too deeply"
  | n + 1, sc, .mk ctes first rest orderBy limit offset => do
    let sc := { sc with ctes := ctes.map CteName.defined ++ sc.ctes }
    let single := rest.isEmpty && first.isCore
    let items ← selectItems n sc first (if single then orderBy else [])
    let mut selects := [items]
    for (op, s) in rest do
      let more ← selectItems n sc s []
      if more.length != items.length then throw (wrongTerms op s)
      selects := selects ++ [more]
    if !single then
      for (t, i) in orderBy.zipIdx do
        let base := (peelCollate t.expr).1
        match base.smallInteger? with
        | some k =>
          if !(1 ≤ k && k.toNat ≤ items.length) then throw (outOfRange "ORDER" (i + 1) items.length)
        | none =>
          if (selects.findSome? fun s => itemIndex (s.map NamedItem.pair) base).isNone then
            throw s!"{ordinalText (i + 1)} ORDER BY term does not match any column in the result set"
    -- LIMIT and OFFSET reach no column
    for e in limit.toList ++ offset.toList do
      if let some m := settle (exprIssues n { sc with levels := [] } false e) then throw m
    pure (items.map (·.name))

/-- Prepares one select of a query: its result columns, or its problem.
`orderBy` is the query's order when the select is the whole query. -/
def selectItems : Nat → NameScope → Select → List OrderTerm → Except String (List NamedItem)
  | 0, _, _, _ => .error "query nests too deeply"
  | n + 1, sc, .values rows, _ => do
    let first := rows.head?.getD []
    if rows.any (·.length != first.length) then throw "all VALUES must have the same number of terms"
    let inner : NameScope := { sc with levels := { frames := [] } :: sc.levels }
    for e in rows.flatten do
      if let some m := settle (exprIssues n inner false e) then throw m
    pure (first.zipIdx.map fun (e, i) => { expr := e, label := none, name := s!"column{i + 1}" })
  | n + 1, sc, .core _ cols src filter groupBy having, orderBy => do
    let frames ← match src with
      | none => pure []
      | some s => sourceFrames n sc s
    let inner : NameScope := { sc with levels := { frames } :: sc.levels }
    let mut items : List (Expr × Option String × String) := []
    for c in cols do
      match c with
      | .expr e a t => items := items ++ [(e, a, t)]
      | .star none =>
        if frames.isEmpty then throw "no tables specified"
        for f in frames do
          items := items ++ (f.columns.filter fun cn => !f.hidden.any (sameName · cn)).map
            fun cn => (.column (some f.label) cn false, none, cn)
      | .star (some l) =>
        match frames.find? fun f => sameName f.label l with
        | some f => items := items ++ f.columns.map fun cn => (.column (some f.label) cn false, none, cn)
        | none => throw s!"no such table: {l}"
    for (e, _, _) in items do
      if let some m := settle (exprIssues n inner true e) then throw m
    let aggregated := items.any (hasAggregate ·.1) || !groupBy.isEmpty
    let aliases := items.filterMap fun (e, a, _) => a.map (·, hasAggregate e)
    let named : NameScope := { sc with levels := { frames, aliases } :: sc.levels }
    if let some h := having then
      if !aggregated then throw "HAVING clause on a non-aggregate query"
      if let some m := settle (exprIssues n named aggregated h) then throw m
    for w in filter.toList ++ ((src.map Source.conditions).getD []) do
      if let some m := settle (exprIssues n named aggregated w) then throw m
    -- ORDER BY and GROUP BY reach only the query's own sources
    let own : NameScope := { sc with levels := [{ frames, aliases }] }
    for (t, i) in orderBy.zipIdx do
      let base := (peelCollate t.expr).1
      if (aliasedItem items base).isNone then
        match base.smallInteger? with
        | some k =>
          if !(1 ≤ k && k.toNat ≤ items.length) then throw (outOfRange "ORDER" (i + 1) items.length)
        | none =>
          if let some m := settle (exprIssues n own aggregated t.expr) then throw m
    for (g, i) in groupBy.zipIdx do
      match (peelCollate g).1.smallInteger? with
      | some k =>
        match (if 1 ≤ k then items[k.toNat - 1]? else none) with
        | some (e, _, _) =>
          if hasAggregate e then throw "aggregate functions are not allowed in the GROUP BY clause"
        | none => throw (outOfRange "GROUP" (i + 1) items.length)
      | none =>
        if let some m := settle (exprIssues n own true g) then throw m
        if hasAggregate (g.substNames (groupAlias frames items)) then
          throw "aggregate functions are not allowed in the GROUP BY clause"
    if let some w := filter then
      if let some a := w.aggregates.head? then
        match a with
        | .call name _ _ _ _ => throw s!"misuse of aggregate: {name}()"
        | _ => pure ()
    pure (items.map fun (e, a, t) => { expr := e, label := a, name := inner.columnName e a t })

/-- The sources a query reads, with the columns each shows. -/
def sourceFrames : Nat → NameScope → Source → Except String (List NameFrame)
  | 0, _, _ => .error "query nests too deeply"
  | n + 1, sc, .table name given => do
    let label := given.getD name
    match sc.ctes.find? fun c => sameName c.name name with
    | some (.fixed _ cols) => pure [{ label, columns := cols }]
    | some (.defined c) => do pure [{ label, columns := ← cteColumns n sc c }]
    | none =>
      match sc.catalog.table? name with
      | some t => pure [{ label, columns := t.columns.map (·.name), rowid := !t.withoutRowid }]
      | none =>
        match sc.catalog.view? name with
        | some v => do pure [{ label, columns := ← viewColumns n sc v }]
        | none => throw (sc.noSuchTable name)
  | n + 1, sc, .query q given => do
    let cols ← queryNames n sc q
    pure [{ label := given.getD "", columns := uniqueNames cols }]
  | n + 1, sc, .join left _ natural right condition usingColumns => do
    let lf ← sourceFrames n sc left
    let rf ← sourceFrames n sc right
    if natural && (condition.isSome || !usingColumns.isEmpty) then
      throw "a NATURAL join may not have an ON or USING clause"
    for nm in usingColumns do
      if !(framesShow lf nm && framesShow rf nm) then
        throw s!"cannot join using column {nm} - column not present in both tables"
    let names := if natural then sharedColumns lf rf else usingColumns
    pure (lf ++ rf.map fun f => { f with hidden := f.hidden ++ names.filter fun nm => f.columns.any (sameName · nm) })

/-- Prepares a view's query: the names of the view's columns. -/
def viewColumns : Nat → NameScope → View → Except String (List String)
  | 0, _, _ => .error "query nests too deeply"
  | n + 1, sc, v => do
    if sc.expanding.any (sameName · v.name) then throw s!"view {v.name} is circularly defined"
    let own : NameScope := { catalog := sc.catalog, fromSchema := true, expanding := v.name :: sc.expanding }
    let names ← queryNames n own v.query
    match v.columns with
    | some cs =>
      if cs.length != names.length then
        throw s!"expected {cs.length} columns for '{v.name}' but got {names.length}"
      pure cs
    | none => pure (uniqueNames names)

/-- Prepares a table a `WITH` clause names: the names of its columns.  In a
recursive one the selects that read the table see it with the columns of
the selects before them. -/
def cteColumns : Nat → NameScope → Cte → Except String (List String)
  | 0, _, _ => .error "query nests too deeply"
  | n + 1, sc, .mk name cols q =>
    match q with
    | .mk ctes first rest _ _ _ => do
      let trailing := (rest.reverse.takeWhile fun (_, s) => s.reads name).length
      let others : NameScope := { sc with ctes := sc.ctes.filter fun c => !sameName c.name name }
      let names ← if trailing == 0 then queryNames n others q
        else do
          let setup ← queryNames n others (.mk ctes first (rest.take (rest.length - trailing)) [] none none)
          queryNames n { others with ctes := .fixed name (cols.getD (uniqueNames setup)) :: others.ctes } q
      match cols with
      | some cs =>
        if cs.length != names.length then throw s!"table {name} has {names.length} values for {cs.length} columns"
        pure cs
      | none => pure (uniqueNames names)

end

/-- The problems of a list of expressions that stops at its first problem. -/
def firstProblem (sc : NameScope) (agg : Bool) (es : List Expr) : Option String :=
  es.findSome? fun e => settle (exprIssues prepareFuel sc agg e)

/-- The table or view a change is made to. -/
def NameScope.target (sc : NameScope) (name : String) : Except String Target :=
  match sc.catalog.table? name with
  | some t => .ok (.table t)
  | none =>
    match sc.catalog.view? name with
    | some v => do pure (.view v (← viewColumns prepareFuel sc v))
    | none => .error (sc.noSuchTable name)

/-- The programs prepared so far for a statement: each is prepared once. -/
structure Prepared where
  /-- The triggers, by name. -/
  triggers : List String := []
  /-- The actions of foreign keys: the child table, the key, and whether the
  action is on an update. -/
  actions : List (String × ForeignKey × Bool) := []
  /-- The action whose preparation began last, if the program begun last is
  an action. -/
  latest : Option (String × ForeignKey × Bool) := none
  /-- The foreign keys, with their tables, whose check of a new row the
  statement leaves out. -/
  unchecked : List (String × ForeignKey) := []

/-- Why a statement cannot be prepared. -/
structure Problem where
  message : String
  /-- Where the fault stands in the text of the schema statement it comes
  from, in bytes, when the engine keeps that place. -/
  offset : Option Nat := none

instance : Coe String Problem := ⟨fun m => { message := m }⟩

/-- A problem as the statement `sql` reports it: with the statement and the
place of the fault when the place is known. -/
def Problem.describe (p : Problem) (sql : String) : String :=
  match p.offset with
  | some n => s!"{p.message} in {sql} at offset {n}"
  | none => p.message

/-- Preparation, keeping the programs prepared so far. -/
abbrev Prepare := StateT Prepared (Except Problem)

/-- Which triggers a change could fire are prepared at a point: those that
run before it or instead of it, those that run after it, or all of them in
the order the schema lists them. -/
inductive Phase where
  | before
  | after
  | all

/-! ## Foreign keys

Preparing a change also looks up the parent key of each foreign key the
change must check, and fails when a parent table is missing or has no key
the foreign key could refer to.  Such a failure takes the place of any
failure of a trigger, and among themselves the last one met stands: a
deletion looks up the keys referring to the table, checks the row against
all its keys, then looks up again those that act on it; an update does the
same for the keys its columns touch; an insertion checks the new row.  A
single row inserted at the top level checks no immediate key referring to
its table, as it cannot break one. -/

/-- The problem of a foreign key of a table, seen from the table: its parent
is missing, or has no key it could refer to. -/
def Catalog.childKeyProblem (c : Catalog) (t : Table) (fk : ForeignKey) : Option String :=
  match c.table? fk.parent with
  | some p => if (fk.parentKey p).isSome then none else some (keyMismatch t.name fk.parent)
  | none =>
    if (c.view? fk.parent).isSome then some (keyMismatch t.name fk.parent)
    else some s!"no such table: main.{fk.parent}"

/-- The problem of a foreign key referring to a table: the table has no key
it could refer to. -/
def parentKeyProblem (parent child : Table) (fk : ForeignKey) : Option String :=
  if (fk.parentKey parent).isSome then none else some (keyMismatch child.name fk.parent)

/-- The first problem met checking a row against the foreign keys of its
table that `childRel` picks, then against those referring to it that
`parentRel` picks. -/
def Catalog.rowKeyProblem (c : Catalog) (t : Table) (childRel parentRel : ForeignKey → Bool) : Option String :=
  ((t.foreignKeys.reverse.filter childRel).findSome? (c.childKeyProblem t)).orElse fun _ =>
    ((c.referencing t.name).filter fun (_, fk) => parentRel fk).findSome? fun (child, fk) =>
      parentKeyProblem t child fk

/-- The problems of looking up the keys referring to a table that `pick`
picks, in order. -/
def Catalog.referringProblems (c : Catalog) (t : Table) (pick : ForeignKey → Bool) : List (Option String) :=
  ((c.referencing t.name).filter fun (_, fk) => pick fk).map fun (child, fk) => parentKeyProblem t child fk

/-- The problem that stands after a sequence of them: the last. -/
def lastProblem (ps : List (Option String)) : Option String := (ps.filterMap id).getLast?

/-- The problem of the foreign keys in deleting a row of a table. -/
def Catalog.deleteKeyProblem (c : Catalog) (t : Table) : Option String :=
  if !c.fkTouches t then none
  else lastProblem (c.referringProblems t (fun _ => true) ++
    [c.rowKeyProblem t (fun _ => true) (fun _ => true)] ++
    c.referringProblems t (·.onDelete != .noAction))

/-- The problem of the foreign keys in updating the columns `changed` (and
the rowid, when `rowidChanged`) of a row of a table, which may replace rows
in its way when `replaces`. -/
def Catalog.updateKeyProblem (c : Catalog) (t : Table) (changed : Nat → Bool) (rowidChanged : Bool)
    (replaces : Bool) : Option String :=
  let childRel (fk : ForeignKey) : Bool := sameName fk.parent t.name || fk.childChanged t changed rowidChanged
  let parentRel (fk : ForeignKey) : Bool := fk.parentChanged t changed rowidChanged
  let hasFK := t.foreignKeys.any (fun fk => fk.childChanged t changed rowidChanged) ||
    (c.referencing t.name).any fun (_, fk) => parentRel fk
  let replaced := if replaces then [c.deleteKeyProblem t] else []
  if !hasFK then lastProblem replaced
  else lastProblem (c.referringProblems t (fun _ => true) ++ replaced ++
    [c.rowKeyProblem t childRel parentRel] ++
    c.referringProblems t fun fk => parentRel fk && fk.onUpdate != .noAction)

/-- Notes the foreign keys of a table, among those `relevant` picks, whose
check of a new row a statement at the top level leaves out: the check is
left out when the last program begun is the key's `SET NULL` action, as if
the statement were that action, which only ever writes nulls. -/
def Prepare.noteUnchecked (top : Bool) (t : Table) (relevant : ForeignKey → Bool) : Prepare Unit := do
  if !top then return
  let some (c, key, update) := (← get).latest | return
  if !sameName c t.name then return
  for fk in t.foreignKeys do
    let action := if update then fk.onUpdate else fk.onDelete
    if relevant fk && fk == key && action == .setNull then
      modify fun p => { p with unchecked := (t.name, fk) :: p.unchecked }

/-- The columns an `UPDATE` of a table sets, and whether it sets the rowid. -/
def Table.setColumns (t : Table) (names : List String) : List Nat × Bool :=
  let cols := names.filterMap t.columnIndex
  let rowid := names.any (fun nm => (t.columnIndex nm).isNone && isRowidName nm && !t.withoutRowid) ||
    (t.rowidAlias.map cols.contains).getD false
  (cols, rowid)

/-- Fails preparation with a problem, if there is one. -/
def Prepare.check (p : Option String) : Prepare Unit :=
  match p with
  | some m => throw (m : Problem)
  | none => pure ()

mutual

/-- The calls that compiling an expression rejects, with their places, in
the order it is compiled: calls of a function that does not exist with
so many arguments.  The arguments of a rejected call are not compiled. -/
def Expr.rejectedCalls : Expr → List (String × Nat)
  | .call name args _ star pos =>
    if (callProblem name (if star then 0 else args.length)).isSome then [(name, pos)]
    else Expr.rejectedCallsIn args
  | .unary _ a | .cast a _ | .collate a _ => a.rejectedCalls
  | .binary _ a b => a.rejectedCalls ++ b.rejectedCalls
  | .between a lo hi _ => a.rejectedCalls ++ lo.rejectedCalls ++ hi.rejectedCalls
  | .inList a items _ => a.rejectedCalls ++ Expr.rejectedCallsIn items
  | .inQuery a _ _ => a.rejectedCalls
  | .caseOf o arms d => Expr.rejectedCallsOpt o ++ Expr.rejectedCallsArms arms ++ Expr.rejectedCallsOpt d
  | .like _ a p e _ => p.rejectedCalls ++ a.rejectedCalls ++ Expr.rejectedCallsOpt e
  | _ => []

def Expr.rejectedCallsIn : List Expr → List (String × Nat)
  | [] => []
  | e :: es => e.rejectedCalls ++ Expr.rejectedCallsIn es

def Expr.rejectedCallsArms : List (Expr × Expr) → List (String × Nat)
  | [] => []
  | (a, b) :: rest => a.rejectedCalls ++ b.rejectedCalls ++ Expr.rejectedCallsArms rest

def Expr.rejectedCallsOpt : Option Expr → List (String × Nat)
  | none => []
  | some e => e.rejectedCalls

end

/-- The truth an expression has whatever the row: an integer literal that
fits in 32 bits, or a bare `TRUE` or `FALSE`. -/
def Expr.constantTruth : Expr → Option Bool
  | .num t =>
    if t.any (fun c => c == '.' || c == 'e' || c == 'E') && !t.toLower.startsWith "0x" then none
    else
      match literalValue t false with
      | .ok (.int v) => if -2147483648 ≤ v && v < 2147483648 then some (v != 0) else none
      | _ => none
  | .column none n false => trueFalseValue n
  | _ => none

/-- An `AND` or `OR` with a side whose truth is constant, reduced to the
side that decides it, as a condition is compiled. -/
def Expr.simplifiedAndOr : Nat → Expr → Expr
  | 0, e => e
  | fuel + 1, e =>
    match e with
    | .binary op a b =>
      if op == .and || op == .or then
        let b' := Expr.simplifiedAndOr fuel b
        let a' := Expr.simplifiedAndOr fuel a
        if a'.constantTruth == some true || b'.constantTruth == some false then
          (if op == .and then b' else a')
        else if b'.constantTruth == some true || a'.constantTruth == some false then
          (if op == .and then a' else b')
        else e
      else e
    | _ => e

/-- The calls that compiling an expression as a condition rejects: the
`AND`, `OR` and `NOT` of a condition are compiled part by part, after the
reduction of constant sides. -/
def Expr.conditionCalls : Nat → Expr → List (String × Nat)
  | 0, _ => []
  | fuel + 1, e =>
    match Expr.simplifiedAndOr prepareFuel e with
    | .binary .and a b | .binary .or a b => Expr.conditionCalls fuel a ++ Expr.conditionCalls fuel b
    | .unary .not a => Expr.conditionCalls fuel a
    | other => other.rejectedCalls

/-- Compiles the `CHECK` constraints of a table that a change must test:
the last call compiling rejects fails it, at the call's place in the
table's statement. -/
def Prepare.compileChecks (checks : List Check) : Prepare Unit :=
  match (checks.flatMap fun ch => Expr.conditionCalls prepareFuel ch.expr).getLast? with
  | some (name, pos) => throw { message := s!"unknown function: {name}()", offset := some pos }
  | none => pure ()

/-- The `CHECK` constraints an update of the columns `changed` (and of the
rowid, when `rowid`) must test: those that read a changed column. -/
def Table.checksOfUpdate (t : Table) (changed : Nat → Bool) (rowid : Bool) : List Check :=
  t.checks.filter fun ch => ch.expr.refs.any fun (_, n) =>
    match t.columnIndex n with
    | some i => changed i
    | none => rowid && isRowidName n

/-- Fails preparation with a message. -/
def Prepare.fail {α : Type} (m : String) : Prepare α := throw (m : Problem)

/-- Fails preparation with a problem of a computation. -/
def Prepare.lift {α : Type} (x : Except String α) : Prepare α :=
  match x with
  | .ok a => pure a
  | .error m => throw (m : Problem)

mutual

/-- Prepares a statement and the triggers it could fire. -/
def prepareStmt : Nat → NameScope → Stmt → Prepare Unit
  | 0, _, _ => pure ()
  | n + 1, sc, .insert conflict table cols rows upserts => do
    let target ← Prepare.lift (sc.target table)
    if let .view v _ := target then
      if !sc.catalog.hasInstead v .insert then Prepare.fail s!"cannot modify {v.name} because it is a view"
    for c in cols.getD [] do
      match target with
      | .table t =>
        match t.columnIndex c with
        | some i =>
          if let some col := t.columns[i]? then
            if col.generated.isSome then Prepare.fail s!"cannot INSERT into generated column \"{col.name}\""
        | none =>
          if !(isRowidName c && !t.withoutRowid) then Prepare.fail s!"table {table} has no column named {c}"
      | .view _ names =>
        if !names.any (sameName · c) then Prepare.fail s!"table {table} has no column named {c}"
    let supplied ← match rows with
      | .values rs => do
        for r in rs do Prepare.check (firstProblem sc false r)
        let widths := rs.map List.length
        if widths.any (· != widths.headD 0) then Prepare.fail "all VALUES must have the same number of terms"
        pure (some (widths.headD 0))
      | .query q => do
        let names ← Prepare.lift (queryNames prepareFuel sc q)
        pure (some names.length)
      | .defaults => pure none
    match cols, supplied with
    | none, some k =>
      let expected := match target with
        | .table t => (t.columns.filter fun c => c.generated.isNone).length
        | .view _ names => names.length
      if k != expected then Prepare.fail s!"table {table} has {expected} columns but {k} values were supplied"
    | some cs, some k =>
      if k != cs.length then Prepare.fail s!"{k} values for {cs.length} columns"
    | _, none => pure ()
    if !upserts.isEmpty then
      match target with
      | .view _ _ => Prepare.fail "cannot UPSERT a view"
      | .table t =>
        let frame : NameFrame := { label := table, columns := t.columns.map (·.name), rowid := !t.withoutRowid }
        let inner : NameScope := { sc with levels := { frames := [frame] } :: sc.levels }
        for (u, k) in upserts.zipIdx do
          let some (cols, cond) := u.target | continue
          Prepare.check (settle (listIssues prepareFuel inner false (cols.map (·.expr))))
          if let some c := cond then Prepare.check (settle (exprIssues prepareFuel inner false c))
          if (t.upsertSlot cols cond).isNone then
            let which := if upserts.length == 1 then "" else s!"{ordinalText (k + 1)} "
            Prepare.fail s!"{which}ON CONFLICT clause does not match any PRIMARY KEY or UNIQUE constraint"
    let replaces := match target with
      | .table t => t.mayReplace conflict (t.rowidGiven cols) && sc.catalog.fkTouches t
      | .view _ _ => false
    if let .table t := target then
      let several := match rows with
        | .values rs => rs.length > 1
        | .query _ => true
        | .defaults => false
      let multiWrite := sc.fromSchema || several ||
        (sc.catalog.triggersOn t.name).any (·.firesOn .insert) || replaces
      Prepare.check (sc.catalog.rowKeyProblem t (fun _ => true) fun fk => fk.deferred || multiWrite)
    prepareTriggers n sc.catalog target .insert .before
    if let .table t := target then Prepare.compileChecks t.checks
    -- a `DO UPDATE` is an update of the row clashed with, `excluded` naming the new one
    if let .table t := target then
      let excluded : NameFrame :=
        { label := "excluded", columns := t.columns.map (·.name), rowid := !t.withoutRowid, named := true }
      for u in upserts do
        if let some (sets, cond) := u.update then
          prepareStmt n { sc with rows := excluded :: sc.rows } (.update (some .abort) table sets none cond)
    if let .table t := target then
      if replaces then prepareActions n sc.catalog t false fun _ => true
      Prepare.noteUnchecked (!sc.fromSchema) t fun _ => true
    prepareTriggers n sc.catalog target .insert .after
  | n + 1, sc, .update conflict table sets src filter => do
    let target ← Prepare.lift (sc.target table)
    let change := Change.update (sets.map (·.1))
    if let .view v _ := target then
      if !sc.catalog.hasInstead v change then Prepare.fail s!"cannot modify {v.name} because it is a view"
    let frame : NameFrame := { label := table, columns := target.columnNames, rowid := target.hasRowid }
    let inner : NameScope := { sc with levels := { frames := [frame] } :: sc.levels }
    for (c, e) in sets do
      if src.isNone then Prepare.check (settle (exprIssues prepareFuel inner false e))
      match target with
      | .table t =>
        match t.columnIndex c with
        | some i =>
          if let some col := t.columns[i]? then
            if col.generated.isSome then Prepare.fail s!"cannot UPDATE generated column \"{col.name}\""
        | none => if !(isRowidName c && !t.withoutRowid) then Prepare.fail s!"no such column: {c}"
      | .view _ names => if !names.any (sameName · c) then Prepare.fail s!"no such column: {c}"
    match src, target with
    | some s, .table t => discard (Prepare.lift (queryNames prepareFuel sc (updateFromQuery t sets s filter)))
    | _, _ => if let some w := filter then Prepare.check (settle (exprIssues prepareFuel inner false w))
    let keyed : Option (Table × (Nat → Bool) × Bool) := match target with
      | .table t =>
        let (cols, rowid) := t.setColumns (sets.map (·.1))
        some (t, (cols.contains ·), rowid)
      | .view _ _ => none
    if let some (t, changed, rowid) := keyed then
      let replaces := t.updateMayReplace conflict changed rowid && sc.catalog.fkTouches t
      Prepare.check (sc.catalog.updateKeyProblem t changed rowid replaces)
    if let some (t, changed, rowid) := keyed then Prepare.compileChecks (t.checksOfUpdate changed rowid)
    prepareTriggers n sc.catalog target change .all
    if let some (t, changed, rowid) := keyed then
      if t.updateMayReplace conflict changed rowid && sc.catalog.fkTouches t then
        prepareActions n sc.catalog t false fun _ => true
      Prepare.noteUnchecked (!sc.fromSchema) t fun fk =>
        sameName fk.parent t.name || fk.childChanged t changed rowid
      prepareActions n sc.catalog t true fun fk => fk.parentChanged t changed rowid
  | n + 1, sc, .delete table filter => do
    let target ← Prepare.lift (sc.target table)
    if let .view v _ := target then
      if !sc.catalog.hasInstead v .delete then Prepare.fail s!"cannot modify {v.name} because it is a view"
    let frame : NameFrame := { label := table, columns := target.columnNames, rowid := target.hasRowid }
    let inner : NameScope := { sc with levels := { frames := [frame] } :: sc.levels }
    if let some w := filter then Prepare.check (settle (exprIssues prepareFuel inner false w))
    if let .table t := target then Prepare.check (sc.catalog.deleteKeyProblem t)
    prepareTriggers n sc.catalog target .delete .all
    if let .table t := target then prepareActions n sc.catalog t false fun _ => true
  | _ + 1, sc, .select q => do
    discard (Prepare.lift (queryNames prepareFuel sc q))

/-- Prepares the triggers of a phase that a change could fire and that are
not prepared yet. -/
def prepareTriggers : Nat → Catalog → Target → Change → Phase → Prepare Unit
  | 0, _, _, _, _ => pure ()
  | n + 1, cat, target, change, phase => do
    let fired := (cat.triggersOn target.name).filter fun tr => tr.firesOn change && match phase with
      | .before => tr.timing != .after
      | .after => tr.timing == .after
      | .all => true
    for tr in fired do
      if (← get).triggers.any (sameName · tr.name) then continue
      modify fun p => { p with triggers := tr.name :: p.triggers, latest := none }
      let row (label : String) : NameFrame :=
        { label, columns := target.columnNames, rowid := target.hasRowid, named := true }
      let rows := match change with
        | .insert => [row "new"]
        | .delete => [row "old"]
        | .update _ => [row "new", row "old"]
      let sc : NameScope := { catalog := cat, rows, fromSchema := true }
      if let some w := tr.when then Prepare.check (settle (exprIssues prepareFuel sc false w))
      for st in tr.body do prepareStmt n sc st

/-- Prepares the actions not prepared yet of the foreign keys referring to a
table that `relevant` picks, on a deletion or an update: each runs its
statement on the child table as a trigger program. -/
def prepareActions : Nat → Catalog → Table → Bool → (ForeignKey → Bool) → Prepare Unit
  | 0, _, _, _, _ => pure ()
  | n + 1, cat, t, update, relevant => do
    for (child, fk) in cat.referencing t.name do
      if !relevant fk then continue
      let some key := fk.parentKey t | continue
      let some st := fk.actionStmt t child key update | continue
      let done := (← get).actions.any fun (c, k, u) => sameName c child.name && k == fk && u == update
      if done then continue
      modify fun p =>
        { p with actions := (child.name, fk, update) :: p.actions,
                 latest := some (child.name, fk, update) }
      let row (label : String) : NameFrame :=
        { label, columns := t.columns.map (·.name), rowid := !t.withoutRowid, named := true }
      let rows := if update then [row "new", row "old"] else [row "old"]
      prepareStmt n { catalog := cat, rows, fromSchema := true } st

end

/-- The problem that keeps a statement from being prepared against a
catalog, if any. -/
def Catalog.prepare (c : Catalog) (st : Stmt) : Option Problem :=
  let keys := (c.tables.map (·.foreignKeys.length)).foldr (· + ·) 0
  match (prepareStmt (2 * (c.triggers.length + 2 * keys) + 4) { catalog := c } st).run {} with
  | .ok _ => none
  | .error m => some m

/-- The foreign keys, with their tables, whose check of a new row a
statement leaves out, as its preparation settles. -/
def Catalog.uncheckedKeys (c : Catalog) (st : Stmt) : List (String × ForeignKey) :=
  let keys := (c.tables.map (·.foreignKeys.length)).foldr (· + ·) 0
  match (prepareStmt (2 * (c.triggers.length + 2 * keys) + 4) { catalog := c } st).run {} with
  | .ok (_, p) => p.unchecked
  | .error _ => []

end Sql
end PowChain
