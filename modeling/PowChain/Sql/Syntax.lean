import PowChain.Sql.Value

/-!
# The syntax of statements

The statements a database keeps in its schema, and those its triggers run,
as trees: expressions (`Expr`) with queries inside them (`Query`), the
statements that change rows (`Stmt`), and the `CREATE` statements of
tables, indexes, views and triggers.

Names are kept as written, without their quotes; they are compared without
regard to ASCII case when they are looked up.
-/

namespace PowChain
namespace Sql

/-- Operators of one operand. -/
inductive UnaryOp where
  | neg
  | pos
  | not
  | bitNot
  deriving DecidableEq, Repr

/-- Operators of two operands. -/
inductive BinaryOp where
  | concat
  | mul
  | div
  | rem
  | add
  | sub
  | shl
  | shr
  | bitAnd
  | bitOr
  | lt
  | le
  | gt
  | ge
  | eq
  | ne
  /-- `IS`: equality in which two nulls are equal. -/
  | is
  | isNot
  | and
  | or
  deriving DecidableEq, Repr

/-- What `RAISE` does. -/
inductive RaiseAction where
  | ignore
  | rollback
  | abort
  | fail
  deriving DecidableEq, Repr

/-- How a statement resolves a broken constraint. -/
inductive Conflict where
  | rollback
  | abort
  | fail
  | ignore
  | replace
  deriving DecidableEq, Repr

/-- How a compound query combines the rows of its parts. -/
inductive SetOp where
  | unionAll
  | union
  | intersect
  | except
  deriving DecidableEq, Repr

/-- Which rows a join keeps besides the pairs that match. -/
inductive JoinKind where
  /-- Only the pairs that match; a `CROSS` join is one too. -/
  | inner
  /-- Also each left row that matches nothing, beside nulls. -/
  | left
  /-- Also each right row that matches nothing, after all the others. -/
  | right
  /-- Both of the above. -/
  | full
  deriving DecidableEq, Repr

mutual

/-- An expression. -/
inductive Expr where
  | lit (v : Value)
  /-- A number as written: its value depends on whether a minus sign
  stands right before it. -/
  | num (text : String)
  /-- A column, perhaps qualified by a table name, `new` or `old`; a name
  written in double quotes that names no column is a string. -/
  | column (qualifier : Option String) (name : String) (quoted : Bool)
  /-- The `column`-th column of the `frame`-th source of the query it
  stands in, both counted from 0 and the sources from the left: what `*`
  stands for. -/
  | sourceColumn (frame column : Nat)
  /-- The `n`-th parameter, from 1. -/
  | param (n : Nat)
  | unary (op : UnaryOp) (e : Expr)
  | binary (op : BinaryOp) (a b : Expr)
  | between (e lo hi : Expr) (negated : Bool)
  | inList (e : Expr) (items : List Expr) (negated : Bool)
  | inQuery (e : Expr) (q : Query) (negated : Bool)
  | rowsExist (q : Query)
  /-- The first value of the first row of a query, or null. -/
  | scalar (q : Query)
  /-- A call of a function; `star` for `count(*)`.  `offset` is where the
  name stands in its statement's text, in bytes. -/
  | call (name : String) (args : List Expr) (distinct : Bool) (star : Bool) (offset : Nat)
  | cast (e : Expr) (typeName : String)
  | collate (e : Expr) (collation : String)
  | caseOf (operand : Option Expr) (arms : List (Expr × Expr)) (otherwise : Option Expr)
  /-- `LIKE` (`glob` false) or `GLOB`. -/
  | like (glob : Bool) (a pattern : Expr) (escape : Option Expr) (negated : Bool)
  | raise (action : RaiseAction) (message : String)

/-- A query: the tables its `WITH` clause names, one or more selects
combined in order by set operations, and the order and bounds of the
whole. -/
inductive Query where
  | mk (ctes : List Cte) (first : Select) (rest : List (SetOp × Select))
    (orderBy : List OrderTerm) (limit : Option Expr) (offset : Option Expr)

/-- One part of a query: a `SELECT` or a `VALUES` list. -/
inductive Select where
  | core (distinct : Bool) (columns : List ResultColumn) (source : Option Source)
    (filter : Option Expr) (groupBy : List Expr) (having : Option Expr)
  | values (rows : List (List Expr))

/-- A term of an `ORDER BY`: its expression, its direction, and where it
puts nulls when that is written (`some true` for `NULLS FIRST`). -/
inductive OrderTerm where
  | mk (e : Expr) (descending : Bool) (nullsFirst : Option Bool)

/-- A table a `WITH` clause names: its name, the names of its columns when
they are given, and its query. -/
inductive Cte where
  | mk (name : String) (columns : Option (List String)) (q : Query)

/-- A column of a query's result. -/
inductive ResultColumn where
  /-- `*`, or `t.*` for one table. -/
  | star (table : Option String)
  | expr (e : Expr) (label : Option String) (text : String)

/-- What a query reads from. -/
inductive Source where
  | table (name : String) (label : Option String)
  | query (q : Query) (label : Option String)
  /-- Two sources joined: `natural` joins on the columns they share,
  `usingColumns` on the columns named, `condition` on an `ON` term. -/
  | join (left : Source) (kind : JoinKind) (natural : Bool) (right : Source)
    (condition : Option Expr) (usingColumns : List String)

end

/-- A query of one select, with no `WITH`, order or bounds. -/
def Query.ofSelect (s : Select) : Query := .mk [] s [] [] none none

/-- The query `SELECT * FROM name`. -/
def Query.ofTable (name : String) : Query :=
  .ofSelect (.core false [.star none] (some (.table name none)) none [] none)

namespace OrderTerm

def expr : OrderTerm → Expr
  | .mk e _ _ => e

def descending : OrderTerm → Bool
  | .mk _ d _ => d

def nullsFirst : OrderTerm → Option Bool
  | .mk _ _ n => n

end OrderTerm

/-! ## Heights

The height of an expression as a tree counts the way the limit of 1000 on a
statement's expressions does.  A leaf is 1 high and a qualified column
`t.c` is 2.  An operator, a call, a `CASE`, a `CAST` or a subquery stands 1
above its highest part, and a negated `IN`, `LIKE` or `BETWEEN` 1 more.  A
subquery's parts are the expressions of all its selects, of its order and of
its bounds; the sources it reads are not.  `BETWEEN` counts only what it
tests, and `COLLATE` stands alone, at 1. -/

/-- 1 for a negated test, else 0. -/
def negationHeight (negated : Bool) : Nat := if negated then 1 else 0

mutual

/-- The height of an expression. -/
def Expr.height : Expr → Nat
  | .column (some _) _ _ => 2
  | .unary _ e => e.height + 1
  | .binary _ a b => max a.height b.height + 1
  | .between e _ _ negated => e.height + 1 + negationHeight negated
  | .inList e items negated => max e.height (Expr.listHeight items) + 1 + negationHeight negated
  | .inQuery e q negated => max e.height q.height + 1 + negationHeight negated
  | .rowsExist q => q.height + 1
  | .scalar q => q.height + 1
  | .call _ args _ _ _ => Expr.listHeight args + 1
  | .cast e _ => e.height + 1
  | .caseOf o arms d =>
    max (Expr.optionHeight o) (max (Expr.armsHeight arms) (Expr.optionHeight d)) + 1
  | .like _ a p e negated =>
    max a.height (max p.height (Expr.optionHeight e)) + 1 + negationHeight negated
  | _ => 1

/-- The greatest height of a list of expressions, or 0. -/
def Expr.listHeight : List Expr → Nat
  | [] => 0
  | e :: es => max e.height (Expr.listHeight es)

/-- The greatest height of the arms of a `CASE`, or 0. -/
def Expr.armsHeight : List (Expr × Expr) → Nat
  | [] => 0
  | (a, b) :: rest => max a.height (max b.height (Expr.armsHeight rest))

/-- The height of an expression that may be missing, 0 when it is. -/
def Expr.optionHeight : Option Expr → Nat
  | none => 0
  | some e => e.height

/-- The greatest height of the expressions of a query. -/
def Query.height : Query → Nat
  | .mk _ first rest orderBy limit offset =>
    let bounds := match limit with
      | some l => max l.height (Expr.optionHeight offset) + 1
      | none => 0
    max first.height (max (Select.armsHeight rest) (max (OrderTerm.listHeight orderBy) bounds))

/-- The greatest height of the expressions of a select. -/
def Select.height : Select → Nat
  | .core _ columns _ filter groupBy having =>
    max (ResultColumn.listHeight columns)
      (max (Expr.optionHeight filter) (max (Expr.listHeight groupBy) (Expr.optionHeight having)))
  | .values rows => Select.rowsHeight rows

/-- The greatest height of the expressions of rows of values. -/
def Select.rowsHeight : List (List Expr) → Nat
  | [] => 0
  | r :: rs => max (Expr.listHeight r) (Select.rowsHeight rs)

/-- The greatest height of the selects after the first of a compound query. -/
def Select.armsHeight : List (SetOp × Select) → Nat
  | [] => 0
  | (_, s) :: rest => max s.height (Select.armsHeight rest)

/-- The greatest height of the terms of an `ORDER BY`. -/
def OrderTerm.listHeight : List OrderTerm → Nat
  | [] => 0
  | .mk e _ _ :: rest => max e.height (OrderTerm.listHeight rest)

/-- The greatest height of the columns of a result: `*` is 1 high, `t.*` 2. -/
def ResultColumn.listHeight : List ResultColumn → Nat
  | [] => 0
  | .star none :: rest => max 1 (ResultColumn.listHeight rest)
  | .star (some _) :: rest => max 2 (ResultColumn.listHeight rest)
  | .expr e _ _ :: rest => max e.height (ResultColumn.listHeight rest)

end

/-- A column of an index or of a key: an expression (a bare column for a
key), its collation and its direction. -/
structure IndexedColumn where
  expr : Expr
  collation : Option String := none
  descending : Bool := false

/-- What an `INSERT` inserts. -/
inductive InsertRows where
  | values (rows : List (List Expr))
  | query (q : Query)
  | defaults

/-- An `ON CONFLICT` clause of an `INSERT`: what it does, in place of
failing, with a row that breaks a uniqueness constraint. -/
structure Upsert where
  /-- The key it is for: the columns of the key and the condition of a
  partial index.  None for every key. -/
  target : Option (List IndexedColumn × Option Expr) := none
  /-- `DO UPDATE`: the assignments and their condition.  None for
  `DO NOTHING`. -/
  update : Option (List (String × Expr) × Option Expr) := none

/-- A statement that reads or changes rows.  An `UPDATE` may read other
sources beside its table (`UPDATE ... FROM`). -/
inductive Stmt where
  | insert (conflict : Option Conflict) (table : String) (columns : Option (List String)) (rows : InsertRows)
    (upserts : List Upsert)
  | update (conflict : Option Conflict) (table : String) (sets : List (String × Expr))
    (source : Option Source) (filter : Option Expr)
  | delete (table : String) (filter : Option Expr)
  | select (q : Query)

/-! ## Schema statements -/

/-- A `CHECK` constraint: the name it reports, its own or its text. -/
structure Check where
  name : String
  expr : Expr

/-- What a foreign key does to the rows that refer to a parent row when the
parent row is deleted or its key changed. -/
inductive FkAction where
  | noAction
  | restrict
  | setNull
  | setDefault
  | cascade
  deriving DecidableEq, Repr

/-- A foreign key as a `CREATE TABLE` statement declares it. -/
structure ForeignKeySpec where
  /-- The referring columns, of the table being declared. -/
  columns : List String
  parent : String
  /-- The parent's columns; none named means the parent's primary key. -/
  parentColumns : List String := []
  onDelete : FkAction := .noAction
  onUpdate : FkAction := .noAction
  /-- Whether the key is checked at commit rather than after each statement. -/
  deferred : Bool := false

/-- A column as a `CREATE TABLE` statement declares it. -/
structure ColumnSpec where
  name : String
  /-- The declared type, as written between the name and the constraints. -/
  typeText : String := ""
  /-- Whether the column is a key on its own, with the key's direction,
  conflict clause and whether it counts up by itself. -/
  primaryKey : Option (Bool × Option Conflict × Bool) := none
  notNull : Option (Option Conflict) := none
  unique : List (Option Conflict) := []
  /-- How many of the `UNIQUE` constraints come before `PRIMARY KEY`: the
  indexes are made in the order the constraints are written. -/
  uniqueFirst : Nat := 0
  checks : List Check := []
  default : Option Expr := none
  collation : Option String := none
  /-- A computed column: its expression, and whether it is stored. -/
  generated : Option (Expr × Bool) := none
  references : List ForeignKeySpec := []

/-- A table-level key or uniqueness constraint. -/
structure KeySpec where
  primary : Bool
  columns : List IndexedColumn
  conflict : Option Conflict := none

/-- A table-level clause of a `CREATE TABLE` statement. -/
inductive TablePart where
  | column (c : ColumnSpec)
  | key (k : KeySpec)
  | check (c : Check)
  | foreignKey (k : ForeignKeySpec)
  | other

/-- A `CREATE TABLE` statement. -/
structure TableSpec where
  name : String
  parts : List TablePart
  withoutRowid : Bool := false
  strict : Bool := false
  /-- The kind of expression in it that holds a parameter, which no table
  may have: the last to be looked at of its generated columns and checks. -/
  paramPlace : Option String := none

/-- A `CREATE INDEX` statement. -/
structure IndexSpec where
  name : String
  table : String
  unique : Bool
  columns : List IndexedColumn
  filter : Option Expr := none
  /-- The kind of expression in it that holds a parameter, which no index
  may have: its columns, else its condition. -/
  paramPlace : Option String := none

/-- A `CREATE VIEW` statement. -/
structure ViewSpec where
  name : String
  columns : Option (List String)
  query : Query

/-- When a trigger runs. -/
inductive Timing where
  | before
  | after
  | insteadOf
  deriving DecidableEq, Repr

/-- What a trigger waits for. -/
inductive Event where
  | insert
  | delete
  /-- An update, of any column or of the columns listed. -/
  | update (columns : Option (List String))

/-- A `CREATE TRIGGER` statement. -/
structure TriggerSpec where
  name : String
  table : String
  timing : Timing
  event : Event
  when : Option Expr
  body : List Stmt

/-- A `CREATE` statement. -/
inductive CreateSpec where
  | table (t : TableSpec)
  | index (i : IndexSpec)
  | view (v : ViewSpec)
  | trigger (t : TriggerSpec)

end Sql
end PowChain
