import PowChain.Sql.Functions
import PowChain.Sql.Relation

/-!
# Evaluating expressions and queries

A database in memory: the catalog and the rows of each table, every row with
its rowid and a value for each column.  Expressions are evaluated in a scope
of rows (the innermost first) and with the statement's parameters; queries
read the tables, and the views through their own queries.

* A comparison first gives its operands an affinity: numeric when either is
  a column of numeric affinity and the other a column, else that of the one
  column; a bare expression has none.  Numeric affinity reads texts that are
  numbers as numbers; text affinity writes numbers as text.  It then compares
  under the collation written with `COLLATE` on either side, else that of the
  left column, else the right one's, else byte order.  Null compares as
  unknown.
* `NEW` and `OLD` in a trigger bring a row whose columns have a collation but
  no affinity, and are only seen when named.
* A query visits a table's rows in the order of the index its filter can use
  on a column it compares (the rowid, a table's own key, or an index starting
  with that column and of the same collation, preferring a unique one of
  one column, then one holding every column the query reads, then the
  newest), else in the table's order; `ORDER BY` then sorts stably, and an
  index in the other direction is walked backwards.
* A query with aggregates over no `GROUP BY` makes one row, even of no rows.

Evaluation is bounded by a depth of nesting (`fuel`); statements never come
near it.
-/

namespace PowChain
namespace Sql

/-- A stored row: its rowid (zero in a table without rowid) and the values of
all its columns. -/
structure Row where
  rowid : Int
  values : Array Value

/-- What a connection keeps between statements: how many rows the last
statement changed, how many all statements changed, and the rowid of the
last row inserted. -/
structure Session where
  changes : Int := 0
  totalChanges : Int := 0
  lastRowid : Int := 0
  deriving DecidableEq

/-- A database in memory. -/
structure Database where
  catalog : Catalog
  /-- The rows of each table, by name, in the table's own order. -/
  rows : List (String × List Row) := []
  /-- The tables whose rows changed. -/
  changed : List String := []
  /-- Why the file refuses a statement once it changes a row, if it does. -/
  frozen : Option String := none
  /-- Tables whose rows cannot be read, with the reason. -/
  unreadable : List (String × String) := []
  /-- Breaches of foreign keys checked after each statement, counted
  during the statement running. -/
  fkImmediate : Int := 0
  /-- Breaches of foreign keys checked at commit. -/
  fkDeferred : Int := 0
  session : Session := {}
  /-- The rows the statement or trigger program running changed so far. -/
  counted : Int := 0
  /-- The state of the generator of random values. -/
  seed : UInt64 := 0x2545F4914F6CDD1D
  /-- The moment `now`, in milliseconds from 1970-01-01 00:00:00. -/
  now : Int := 1767225600000
  /-- The encoding of the file's texts, which the values made here take. -/
  encoding : Encoding := .utf8

/-- Why evaluation stops: a failure with its message, or `RAISE(IGNORE)`. -/
inductive Halt where
  | fail (message : String)
  | ignore

/-- A computation on a database. -/
abbrev Run := StateT Database (Except Halt)

def Run.fail {α : Type} (m : String) : Run α := throw (.fail m)

/-- Fails a statement by a constraint resolved by `mode`.  Under `FAIL` a
breach of an immediate foreign key the statement has counted so far is
reported in its place, as the statement's end checks those first. -/
def Run.failAs {α : Type} (mode : Conflict) (m : String) : Run α := do
  if mode == .fail && (← get).fkImmediate > 0 then Run.fail "FOREIGN KEY constraint failed"
  else Run.fail m

/-- A function's failure as a computation's. -/
def Run.ofExcept {α : Type} (r : Except String α) : Run α :=
  match r with
  | .ok a => pure a
  | .error m => throw (.fail m)

namespace Database

/-- The rows of a table. -/
def rowsOf (db : Database) (t : String) : List Row :=
  ((db.rows.find? fun p => sameName p.1 t).map (·.2)).getD []

/-- The database with a table's rows replaced. -/
def setRows (db : Database) (t : String) (rs : List Row) : Database :=
  let others := db.rows.filter fun p => !sameName p.1 t
  { db with rows := others ++ [(t, rs)],
            changed := if db.changed.any (sameName · t) then db.changed else db.changed ++ [t] }

end Database

/-- Fails when a table's rows cannot be read. -/
def readable (t : String) : Run Unit := do
  match (← get).unreadable.find? fun p => sameName p.1 t with
  | some (_, m) => Run.fail m
  | none => pure ()

/-! ## Scopes -/

/-- A row in scope: the name it is known by, its columns and their values. -/
structure Frame where
  label : String
  columns : List ColumnInfo
  values : Array Value
  /-- The rowid, when the source has one; null in a row a join made up. -/
  rowid : Option Value := none
  /-- Whether the row is only seen through its name (`NEW`, `OLD`). -/
  named : Bool := false
  /-- Columns only a qualified name reaches: the right side's copies of the
  columns a join matches by name. -/
  hidden : List String := []

/-- A table a `WITH` clause names, as the queries inside it see it. -/
inductive CteRows where
  /-- Its query, run where it is read. -/
  | query (c : Cte)
  /-- The rows of one step of a recursive query. -/
  | fixed (name : String) (rel : Relation)

/-- The name of a table a `WITH` clause names. -/
def CteRows.name : CteRows → String
  | .query (.mk n _ _) => n
  | .fixed n _ => n

/-- The rows in scope, the innermost first, the parameters, and the tables
of the `WITH` clauses around. -/
structure Scope where
  frames : List Frame := []
  params : Array Value := #[]
  ctes : List CteRows := []

/-- Whether a name is one of the names of the rowid. -/
def isRowidName (n : String) : Bool := ["rowid", "oid", "_rowid_"].contains n.toLower

/-- The columns of a table as a scope shows them. -/
def Table.columnInfos (t : Table) : List ColumnInfo :=
  t.columns.map fun c => { name := c.name, affinity := some c.affinity, collation := c.collation }

/-- A row of a table in scope under a name. -/
def Table.frame (t : Table) (label : String) (r : Row) : Frame :=
  { label, columns := t.columnInfos, values := r.values,
    rowid := if t.withoutRowid then none else some (.int r.rowid) }

/-- A row of nulls with the given columns, for what a query's shape needs. -/
def Frame.blank (label : String) (cols : List ColumnInfo) : Frame :=
  { label, columns := cols, values := (cols.map fun _ => Value.null).toArray }

/-- The frame with every value null, as a join gives a side that matched
nothing. -/
def Frame.nulled (f : Frame) : Frame :=
  { f with values := f.values.map fun _ => .null, rowid := f.rowid.map fun _ => .null }

/-- Whether an unqualified name reaches a column of the frame. -/
def Frame.shows (f : Frame) (name : String) : Bool :=
  !f.named && !f.hidden.any (sameName · name) && f.columns.any (sameName ·.name name)

namespace Scope

def push (sc : Scope) (f : Frame) : Scope := { sc with frames := f :: sc.frames }

/-- The scope with a query's own rows in front, from the left. -/
def pushAll (sc : Scope) (fs : List Frame) : Scope := { sc with frames := fs ++ sc.frames }

/-- The column a name refers to, with its value. -/
def find? (sc : Scope) (q : Option String) (name : String) : Option (ColumnInfo × Value) :=
  sc.frames.findSome? fun f =>
    let visible := match q with
      | some l => sameName l f.label
      | none => !f.named
    if !visible then none
    else
      let hidden := q.isNone && f.hidden.any (sameName · name)
      match (if hidden then none else f.columns.findIdx? fun c => sameName c.name name) with
      | some i => (f.columns[i]?).map fun c => (c, f.values.getD i .null)
      | none =>
        match f.rowid with
        | some r => if isRowidName name then some ({ name, affinity := some .integer, collation := .binary }, r) else none
        | none => none

/-- The column `*` stands for at a place among the query's own rows. -/
def sourceColumn? (sc : Scope) (i j : Nat) : Option (ColumnInfo × Value) :=
  (sc.frames[i]?).bind fun f => (f.columns[j]?).map fun c => (c, f.values.getD j .null)

/-- The affinity of an expression: a column's, a cast's type's, or none. -/
def affinityOf (sc : Scope) : Expr → Option Affinity
  | .column q n _ => (sc.find? q n).bind (·.1.affinity)
  | .sourceColumn i j => (sc.sourceColumn? i j).bind (·.1.affinity)
  | .cast _ t => some (Affinity.ofType t)
  | .collate e _ => sc.affinityOf e
  | _ => none

/-- The collation written with `COLLATE` somewhere in an expression's
operands, the left one first. -/
def explicitCollation : Option (Collation × Bool) → Option (Collation × Bool)
  | some (c, true) => some (c, true)
  | _ => none

/-- The collation of an expression, and whether it is written with
`COLLATE`: a column's own, or one written on an operand. -/
def collationOf (sc : Scope) : Expr → Option (Collation × Bool)
  | .collate _ c => some ((Collation.ofName? c).getD .binary, true)
  | .column q n _ => (sc.find? q n).map fun (c, _) => (c.collation, false)
  | .sourceColumn i j => (sc.sourceColumn? i j).map fun (c, _) => (c.collation, false)
  | .cast e _ => sc.collationOf e
  | .unary .pos e => sc.collationOf e
  | .unary _ e => explicitCollation (sc.collationOf e)
  | .binary _ a b =>
    (explicitCollation (sc.collationOf a)).orElse fun _ => explicitCollation (sc.collationOf b)
  | .call _ args _ _ _ =>
    args.attach.findSome? fun ⟨a, _⟩ => explicitCollation (sc.collationOf a)
  | _ => none

/-- The collation two compared expressions use. -/
def pairCollation (sc : Scope) (a b : Expr) : Collation :=
  match sc.collationOf a, sc.collationOf b with
  | some (c, true), _ => c
  | _, some (c, true) => c
  | some (c, _), _ => c
  | _, some (c, _) => c
  | _, _ => .binary

end Scope

/-- The truth value a bare name `TRUE` or `FALSE` stands for, in any case. -/
def trueFalseValue (n : String) : Option Bool :=
  let l := n.toLower
  if l == "true" then some true else if l == "false" then some false else none

/-- The truth `x IS TRUE`, `x IS NOT FALSE` and the like test for, when the
right side of an `IS` is a bare `TRUE` or `FALSE` that names no column: it
tests the truth of the left side, null counting as neither. -/
def Scope.truthTest (sc : Scope) (op : BinaryOp) (b : Expr) : Option Bool :=
  match b with
  | .column none n false =>
    if (op == .is || op == .isNot) && (sc.find? none n).isNone then trueFalseValue n else none
  | _ => none

/-- The message for a name that refers to no column. -/
def noSuchColumn (q : Option String) (n : String) : String :=
  match q with
  | some l => s!"no such column: {l}.{n}"
  | none => s!"no such column: {n}"

/-! ## Operators on values -/

def Affinity.isNumeric : Affinity → Bool
  | .numeric | .integer | .real => true
  | _ => false

/-- The affinity a comparison gives its operands. -/
def compareAffinity (a b : Option Affinity) : Option Affinity :=
  match a, b with
  | some x, some y => if x.isNumeric || y.isNumeric then some .numeric else none
  | some x, none => some x
  | none, some y => some y
  | none, none => none

/-- Two compared operands under the comparison's affinity.  Nothing
changes unless one of them is a text: then under a numeric affinity each
text that is wholly a number becomes one, and under text affinity each
number becomes its text. -/
def applyAffinity (aff : Option Affinity) (a b : Value) : Value × Value :=
  let isText : Value → Bool := fun | .text _ _ => true | _ => false
  if !(isText a || isText b) then (a, b)
  else
    match aff with
    | some .text =>
      let toText : Value → Value := fun v => match v with
        | .int _ | .real _ => match v.render with
          | some t => .text t .utf8
          | none => v
        | _ => v
      (toText a, toText b)
    | some x =>
      if x.isNumeric then
        let toNum : Value → Value := fun v => match v with
          | .text t e => (numericText false (e.decode t)).getD v
          | _ => v
        (toNum a, toNum b)
      else (a, b)
    | none => (a, b)

/-- How two values compare, unknown when one is null. -/
def comparison (aff : Option Affinity) (coll : Collation) (a b : Value) : Option Ordering :=
  if a.isNull || b.isNull then none
  else
    let (a, b) := applyAffinity aff a b
    some (Value.compareWith coll a b)

def ofBool (b : Bool) : Value := .int (if b then 1 else 0)

/-- A truth value, null for unknown. -/
def ofTruth : Option Bool → Value
  | some b => ofBool b
  | none => .null

def andTruth : Option Bool → Option Bool → Option Bool
  | some false, _ | _, some false => some false
  | some true, some true => some true
  | _, _ => none

def orTruth : Option Bool → Option Bool → Option Bool
  | some true, _ | _, some true => some true
  | some false, some false => some false
  | _, _ => none

/-- The 64-bit word of an integer. -/
def toWord (i : Int) : Nat := (i % Int.ofNat (twoPow 64)).toNat

/-- The integer of a 64-bit word. -/
def ofWord (w : Nat) : Int :=
  if w ≥ twoPow 63 then Int.ofNat w - Int.ofNat (twoPow 64) else Int.ofNat w

/-- An integer wrapped to 64 bits. -/
def wrap64 (i : Int) : Int := ofWord (toWord i)

/-- Shifts an integer left by `k` bits (right when negative), as 64-bit
words; a right shift copies the sign. -/
def shiftLeft (i : Int) (k : Int) : Int :=
  if k ≥ 64 then 0
  else if k ≥ 0 then wrap64 (i * Int.ofNat (twoPow k.toNat))
  else if k ≤ -64 then (if i < 0 then -1 else 0)
  else i / Int.ofNat (twoPow (-k).toNat)

/-- A double as the result of arithmetic: null when it is not a number. -/
def realResult (f : Float) : Value := if f.isNaN then .null else .real f.toBits

/-- The double of a value's bits. -/
def floatOf (bits : UInt64) : Float := Float.ofBits bits

/-- Arithmetic on doubles: the operands are read as doubles, except that
a remainder is that of their integers. -/
def realArith (op : BinaryOp) (a b : Value) : Value :=
  let x := floatOf a.realValue
  let y := floatOf b.realValue
  match op with
  | .add => realResult (x + y)
  | .sub => realResult (x - y)
  | .mul => realResult (x * y)
  | .div => if y == 0 then .null else realResult (x / y)
  | _ =>
    let ix := a.intValue
    let iy := b.intValue
    if iy == 0 then .null
    else realResult (floatOf (realOfInt (ix.tmod (if iy == -1 then 1 else iy))))

/-- The value of an arithmetic operator.  Two integers give an integer,
unless the exact result does not fit in 64 bits; then, and whenever an
operand is a double, the result is a double.  A text or a blob operand is
read as the number at its start.  Dividing by zero gives null. -/
def arith (op : BinaryOp) (a b : Value) : Value :=
  if a.isNull || b.isNull then .null
  else
    match op with
    | .bitAnd => .int (ofWord (Nat.land (toWord a.intValue) (toWord b.intValue)))
    | .bitOr => .int (ofWord (Nat.lor (toWord a.intValue) (toWord b.intValue)))
    | .shl => .int (shiftLeft a.intValue b.intValue)
    | .shr => .int (shiftLeft a.intValue (-b.intValue))
    | _ =>
      match a.numeric, b.numeric with
      | .int x, .int y =>
        let exact : Option Int := match op with
          | .add => some (x + y)
          | .sub => some (x - y)
          | .mul => some (x * y)
          | .div => if y == 0 then none else some (x.tdiv y)
          | _ => if y == 0 then none else some (x.tmod (if y == -1 then 1 else y))
        match exact with
        | some r => if fits r then .int r else realArith op a b
        | none => .null
      | _, _ => realArith op a b

/-- The value of an operator of one operand.  A minus sign subtracts from
zero. -/
def unaryValue (op : UnaryOp) (v : Value) : Value :=
  match op with
  | .pos => v
  | .not => ofTruth (v.truth.map (!·))
  | .bitNot => if v.isNull then .null else .int (-v.intValue - 1)
  | .neg => arith .sub (.int 0) v

/-- The value of a comparison operator. -/
def compareValue (op : BinaryOp) (aff : Option Affinity) (coll : Collation) (a b : Value) : Value :=
  match op with
  | .is | .isNot =>
    let same := if a.isNull && b.isNull then true
      else if a.isNull || b.isNull then false
      else comparison aff coll a b == some .eq
    ofBool (if op == .is then same else !same)
  | _ =>
    match comparison aff coll a b with
    | none => .null
    | some o => ofBool <| match op with
      | .lt => o == .lt
      | .le => o != .gt
      | .gt => o == .gt
      | .ge => o != .lt
      | .eq => o == .eq
      | _ => o != .eq

/-- Whether an operator compares. -/
def BinaryOp.compares : BinaryOp → Bool
  | .lt | .le | .gt | .ge | .eq | .ne | .is | .isNot => true
  | _ => false

/-- The value of `x IN (...)` over the candidates' values. -/
def membership (aff : Option Affinity) (coll : Collation) (v : Value) (vs : List Value) : Option Bool :=
  if vs.isEmpty then some false
  else if v.isNull then none
  else if vs.any fun w => comparison aff coll v w == some .eq then some true
  else if vs.any Value.isNull then none
  else some false

/-! ## Walking expressions -/

mutual

/-- The aggregate calls in an expression, outermost first, left to right; the
arguments of an aggregate and queries inside are not searched. -/
def Expr.aggregates : Expr → List Expr
  | .call name args d star pos =>
    if isAggregate name.toLower args.length star then [.call name args d star pos] else Expr.aggregatesIn args
  | .unary _ a => a.aggregates
  | .binary _ a b => a.aggregates ++ b.aggregates
  | .between a b c _ => a.aggregates ++ b.aggregates ++ c.aggregates
  | .inList a xs _ => a.aggregates ++ Expr.aggregatesIn xs
  | .inQuery a _ _ => a.aggregates
  | .cast a _ => a.aggregates
  | .collate a _ => a.aggregates
  | .caseOf o arms d => Expr.aggregatesOpt o ++ Expr.aggregatesArms arms ++ Expr.aggregatesOpt d
  | .like _ a p e _ => a.aggregates ++ p.aggregates ++ Expr.aggregatesOpt e
  | _ => []

def Expr.aggregatesIn : List Expr → List Expr
  | [] => []
  | e :: es => e.aggregates ++ Expr.aggregatesIn es

def Expr.aggregatesArms : List (Expr × Expr) → List Expr
  | [] => []
  | (a, b) :: rest => a.aggregates ++ b.aggregates ++ Expr.aggregatesArms rest

def Expr.aggregatesOpt : Option Expr → List Expr
  | none => []
  | some e => e.aggregates

end

mutual

/-- Puts values, in order, in place of the aggregate calls of an expression. -/
def Expr.fill : Expr → StateM (List Value) Expr
  | .call name args d star pos =>
    if isAggregate name.toLower args.length star then do
      match ← get with
      | v :: rest => set rest; pure (.lit v)
      | [] => pure (.lit .null)
    else do pure (.call name (← Expr.fillIn args) d star pos)
  | .unary op a => do pure (.unary op (← a.fill))
  | .binary op a b => do pure (.binary op (← a.fill) (← b.fill))
  | .between a b c n => do pure (.between (← a.fill) (← b.fill) (← c.fill) n)
  | .inList a xs n => do pure (.inList (← a.fill) (← Expr.fillIn xs) n)
  | .inQuery a q n => do pure (.inQuery (← a.fill) q n)
  | .cast a t => do pure (.cast (← a.fill) t)
  | .collate a c => do pure (.collate (← a.fill) c)
  | .caseOf o arms d => do pure (.caseOf (← Expr.fillOpt o) (← Expr.fillArms arms) (← Expr.fillOpt d))
  | .like g a p e n => do pure (.like g (← a.fill) (← p.fill) (← Expr.fillOpt e) n)
  | e => pure e

def Expr.fillIn : List Expr → StateM (List Value) (List Expr)
  | [] => pure []
  | e :: es => do pure ((← e.fill) :: (← Expr.fillIn es))

def Expr.fillArms : List (Expr × Expr) → StateM (List Value) (List (Expr × Expr))
  | [] => pure []
  | (a, b) :: rest => do pure ((← a.fill, ← b.fill) :: (← Expr.fillArms rest))

def Expr.fillOpt : Option Expr → StateM (List Value) (Option Expr)
  | none => pure none
  | some e => do pure (some (← e.fill))

end

mutual

/-- The columns an expression names, with their qualifiers; queries inside
are not searched. -/
def Expr.refs : Expr → List (Option String × String)
  | .column q n _ => [(q, n)]
  | .call _ args _ _ _ => Expr.refsIn args
  | .unary _ a => a.refs
  | .binary _ a b => a.refs ++ b.refs
  | .between a b c _ => a.refs ++ b.refs ++ c.refs
  | .inList a xs _ => a.refs ++ Expr.refsIn xs
  | .inQuery a _ _ => a.refs
  | .cast a _ => a.refs
  | .collate a _ => a.refs
  | .caseOf o arms d => Expr.refsOpt o ++ Expr.refsArms arms ++ Expr.refsOpt d
  | .like _ a p e _ => a.refs ++ p.refs ++ Expr.refsOpt e
  | _ => []

def Expr.refsIn : List Expr → List (Option String × String)
  | [] => []
  | e :: es => e.refs ++ Expr.refsIn es

def Expr.refsArms : List (Expr × Expr) → List (Option String × String)
  | [] => []
  | (a, b) :: rest => a.refs ++ b.refs ++ Expr.refsArms rest

def Expr.refsOpt : Option Expr → List (Option String × String)
  | none => []
  | some e => e.refs

end

mutual

/-- Puts expressions in place of the unqualified names that `f` maps to
one; queries inside are left as they are. -/
def Expr.substNames (f : String → Option Expr) : Expr → Expr
  | .column none n q => (f n).getD (.column none n q)
  | .call name args d star pos => .call name (Expr.substNamesIn f args) d star pos
  | .unary op a => .unary op (a.substNames f)
  | .binary op a b => .binary op (a.substNames f) (b.substNames f)
  | .between a b c n => .between (a.substNames f) (b.substNames f) (c.substNames f) n
  | .inList a xs n => .inList (a.substNames f) (Expr.substNamesIn f xs) n
  | .inQuery a q n => .inQuery (a.substNames f) q n
  | .cast a t => .cast (a.substNames f) t
  | .collate a c => .collate (a.substNames f) c
  | .caseOf o arms d => .caseOf (Expr.substNamesOpt f o) (Expr.substNamesArms f arms) (Expr.substNamesOpt f d)
  | .like g a p e n => .like g (a.substNames f) (p.substNames f) (Expr.substNamesOpt f e) n
  | e => e

def Expr.substNamesIn (f : String → Option Expr) : List Expr → List Expr
  | [] => []
  | e :: es => e.substNames f :: Expr.substNamesIn f es

def Expr.substNamesArms (f : String → Option Expr) : List (Expr × Expr) → List (Expr × Expr)
  | [] => []
  | (a, b) :: rest => (a.substNames f, b.substNames f) :: Expr.substNamesArms f rest

def Expr.substNamesOpt (f : String → Option Expr) : Option Expr → Option Expr
  | none => none
  | some e => some (e.substNames f)

end

/-- An expression without the `COLLATE` around it, with the name of the
outermost one. -/
def peelCollate : Expr → Expr × Option String
  | .collate e c => ((peelCollate e).1, some c)
  | e => (e, none)

/-- An expression with a `COLLATE` put back around it. -/
def withCollate (e : Expr) : Option String → Expr
  | some c => .collate e c
  | none => e

/-- Whether a number token is an integer as written, in decimal or
hexadecimal. -/
def isIntegerToken (t : String) : Bool :=
  let cs := t.toList
  match cs with
  | '0' :: x :: rest => if x == 'x' || x == 'X' then !rest.isEmpty && rest.all Char.isHexDigit else cs.all Char.isDigit
  | _ => !cs.isEmpty && cs.all Char.isDigit

/-- The integer an expression is when it is an integer literal of 32 bits,
perhaps with signs before it: a term that names a result column by its
place. -/
def Expr.smallInteger? : Expr → Option Int
  | .num t =>
    if !isIntegerToken t then none
    else match literalValue t false with
      | .ok (.int i) => if 0 ≤ i && i < 2147483648 then some i else none
      | _ => none
  | .unary .pos e => e.smallInteger?
  | .unary .neg e => e.smallInteger?.map (- ·)
  | _ => none

/-- The next value of the generator of random values, a 64-bit xorshift. -/
def nextRandom : Run UInt64 := do
  let x := (← get).seed
  let x := x ^^^ (x <<< 13)
  let x := x ^^^ (x >>> 7)
  let x := x ^^^ (x <<< 17)
  modify fun db => { db with seed := x }
  pure x

/-- Random bytes, `n` of them. -/
def randomBytes (n : Nat) : Run ByteArray := do
  let mut out := ByteArray.empty
  for _ in [0:n] do
    out := out.push (← nextRandom).toUInt8
  pure out

/-- The functions that read the connection or change it: `changes()`,
`total_changes()`, `last_insert_rowid()`, `random()` and `randomblob(n)`,
which gives at least one byte, and the date and time functions, which read
the moment `now`.  None for any other call. -/
def connectionCall (f : String) (vs : List Value) : Run (Option Value) := do
  let db ← get
  match f, vs with
  | "changes", [] => pure (some (.int db.session.changes))
  | "total_changes", [] => pure (some (.int db.session.totalChanges))
  | "last_insert_rowid", [] => pure (some (.int db.session.lastRowid))
  | "random", [] => pure (some (.int (Int.ofNat (← nextRandom).toNat - Int.ofNat (Nat.pow 2 63))))
  | "randomblob", [v] =>
    let k := v.intValue
    if k > 1000000000 then Run.fail "string or blob too big"
    else pure (some (.blob (← randomBytes (max 1 k).toNat) .utf8))
  | _, _ => pure (Date.call db.now f vs)

/-- An ordinal number as messages write it: `1st`, `2nd`, `3rd`, `4th`,
`11th`, `21st`. -/
def ordinalText (n : Nat) : String :=
  let suffix :=
    if (n / 10) % 10 == 1 then "th"
    else match n % 10 with
      | 1 => "st"
      | 2 => "nd"
      | 3 => "rd"
      | _ => "th"
  toString n ++ suffix

/-- The message for an `ORDER BY` or `GROUP BY` term that names a result
column that does not exist. -/
def outOfRange (clause : String) (i count : Nat) : String :=
  s!"{ordinalText i} {clause} BY term out of range - should be between 1 and {count}"

/-! ## The order a query visits a table in -/

/-- A condition of a filter on a column of the table: its position and
whether it is an equality. -/
structure KeyTerm' where
  column : Option Nat
  equality : Bool

/-- The terms of a filter, split at `AND`. -/
def conjuncts : Expr → List Expr
  | .binary .and a b => conjuncts a ++ conjuncts b
  | e => [e]

/-- Whether a name refers to the table's row under a label. -/
def namesTable (t : Table) (label : String) (q : Option String) (n : String) : Bool :=
  (match q with
    | some l => sameName l label
    | none => true) && ((t.columnIndex n).isSome || (isRowidName n && !t.withoutRowid))

/-- The column (none for the rowid) a term compares with something that does
not read the table, and whether it is an equality. -/
def keyTermOf (t : Table) (label : String) (e : Expr) : Option (Option Nat × Bool) :=
  let side (c other : Expr) (eq : Bool) : Option (Option Nat × Bool) :=
    match c with
    | .column q n _ =>
      if namesTable t label q n && !(other.refs.any fun (q', n') => namesTable t label q' n') then
        match t.columnIndex n with
        | some i => some (if t.rowidAlias == some i then none else some i, eq)
        | none => some (none, eq)
      else none
    | _ => none
  match e with
  | .binary op a b =>
    let eq := op == .eq || op == .is
    if eq || op == .lt || op == .le || op == .gt || op == .ge then
      (side a b eq).orElse fun _ => side b a eq
    else none
  | _ => none

/-- Whether an index holds every column in a list. -/
def Index.covers (t : Table) (i : Index) (cols : List Nat) : Bool :=
  let holds (ix : Index) (c : Nat) : Bool := ix.parts.any fun p => match p.term with
    | .column j => j == c
    | .expr _ => false
  cols.all fun c => t.rowidAlias == some c || holds i c ||
    (t.withoutRowid && (t.primaryKey.map (holds · c)).getD false)

/-- What the planner has read of a declared type so far: its last letters,
the affinity they gave, and where a size may follow. -/
structure TypeScan where
  recent : List Char := []
  affinity : Affinity := .numeric
  sizeFrom : Option Nat := none
  done : Bool := false

/-- Reads one more letter of a declared type `cs`: `CHAR`, `CLOB` or `TEXT`
make it a text (a size may follow `CHAR`), `BLOB` a blob (with a size when a
bracket follows), `REAL`, `FLOA` or `DOUB` a double, and `INT` ends the
reading. -/
def TypeScan.step (cs : List Char) (s : TypeScan) (ci : Char × Nat) : TypeScan :=
  if s.done then s
  else
    let recent := ((s.recent ++ [ci.1.toLower]).reverse.take 4).reverse
    let s := { s with recent }
    let word := String.ofList recent
    if word == "char" then { s with affinity := .text, sizeFrom := some (ci.2 + 1) }
    else if word == "clob" || word == "text" then { s with affinity := .text }
    else if word == "blob" && (s.affinity == .numeric || s.affinity == .real) then
      { s with affinity := .blob,
               sizeFrom := if cs.getD (ci.2 + 1) ' ' == '(' then some (ci.2 + 1) else s.sizeFrom }
    else if (word == "real" || word == "floa" || word == "doub") && s.affinity == .numeric then
      { s with affinity := .real }
    else if recent.drop (recent.length - 3) == ['i', 'n', 't'] then { s with affinity := .integer, done := true }
    else s

/-- The first number written after a place in a declared type, or 0 when
there is none or it does not fit in 31 bits. -/
def sizeAfter (cs : List Char) : Nat :=
  let ds := (cs.dropWhile fun c => !c.isDigit).takeWhile Char.isDigit
  let n := ds.foldl (fun acc d => acc * 10 + (d.toNat - 48)) 0
  if ds.length > 10 || n > 2147483647 then 0 else n

/-- The width the planner guesses for a column of a declared type, in units
of four bytes: 1 for a number or an untyped column, 5 for a text or a blob,
`k/4 + 1` for a size `k` written after `CHAR`. -/
def typeWidth (t : String) : Nat :=
  if t.isEmpty then 1
  else
    let cs := t.toList
    let s := cs.zipIdx.foldl (TypeScan.step cs) {}
    let v : Nat := match s.affinity, s.sizeFrom with
      | .text, some p | .blob, some p => sizeAfter (cs.drop p)
      | .text, none | .blob, none => 16
      | _, _ => 0
    min 255 (v / 4 + 1)

/-- The planner's logarithmic measure of a count: about ten times its
base-2 logarithm. -/
def logEst (x : Nat) : Int :=
  let a : List Int := [0, 2, 3, 5, 6, 7, 8, 9]
  if x < 2 then 0
  else if x < 8 then
    let (y, x') : Int × Nat := if x < 4 then (20, x * 4) else (30, x * 2)
    a.getD (x' % 8) 0 + y - 10
  else
    let i := Nat.log2 x - 3
    a.getD ((x / Nat.pow 2 i) % 8) 0 + (40 + 10 * i) - 10

/-- The measured width of a table's rows. -/
def Table.rowWidth (t : Table) : Int :=
  logEst (((t.columns.map fun c => typeWidth c.typeText).foldr (· + ·) 0 + (if t.rowidAlias.isNone then 1 else 0)) * 4)

/-- The measured width of an index's rows: its terms, and the rowid or the
columns of the primary key it carries besides. -/
def Table.indexWidth (t : Table) (i : Index) : Int :=
  let partWidth (p : KeyPart) : Nat := match p.term with
    | .column j => ((t.columns[j]?).map fun c => typeWidth c.typeText).getD 1
    | .expr _ => 1
  let samePart (a b : KeyPart) : Bool := match a.term, b.term with
    | .column x, .column y => x == y
    | _, _ => false
  let carried : Nat :=
    if t.withoutRowid then
      match t.primaryKey with
      | some pk => ((pk.parts.filter fun p => !i.parts.any (samePart p)).map partWidth).foldr (· + ·) 0
      | none => 0
    else 1
  logEst (((i.parts.map partWidth).foldr (· + ·) 0 + carried) * 4)

/-- The index a query that no condition narrows reads in place of the
table: among those that hold every column it reads and have narrower rows
than the table, the cheapest, the newest of equally cheap ones. -/
def fullScanIndex (t : Table) (uses : List Nat) : Option Index :=
  let tw := t.rowWidth
  let usable := (t.indexes.filter fun i => !i.primary || !t.withoutRowid).reverse.filter fun i =>
    i.filter.isNone && i.covers t uses && t.indexWidth i < tw
  let cost (i : Index) : Int := 1 + (15 * t.indexWidth i) / tw
  usable.foldl (fun best i => match best with
    | some b => if cost i < cost b then some i else some b
    | none => some i) none

/-- The first column an index is ordered by. -/
def Index.leading (i : Index) : Option Nat :=
  match i.parts with
  | p :: _ => match p.term with
    | .column j => some j
    | .expr _ => none
  | [] => none

/-- Compares two rows by the column terms of an index. -/
def compareByParts (parts : List KeyPart) (a b : Row) : Ordering :=
  match parts with
  | [] => .eq
  | p :: ps =>
    match p.term with
    | .column j =>
      let o := Value.compareWith p.collation (a.values.getD j .null) (b.values.getD j .null)
      let o := if p.descending then o.swap else o
      if o == .eq then compareByParts ps a b else o
    | .expr _ => compareByParts ps a b

/-- Rows in the order of an index. -/
def orderByIndex (i : Index) (rows : List Row) : List Row :=
  rows.mergeSort fun a b => compareByParts i.parts a b != .gt

/-- The order a query visits a table's rows in: `uses` are the table's
columns the query reads, `order` the first `ORDER BY` term's column and
direction. -/
def plannedRows (t : Table) (label : String) (filter : Option Expr) (uses : List Nat)
    (order : Option (Nat × Bool)) (rows : List Row) : List Row :=
  let terms := (match filter with
    | some f => conjuncts f
    | none => []).filterMap (keyTermOf t label)
  let onRowid := terms.any fun (c, _) => c.isNone
  let keyed (c : Nat) : Option Bool := (terms.find? fun (c', _) => c' == some c).map (·.2)
  let walk (i : Index) : List Row :=
    let ordered := orderByIndex i rows
    let backwards := match order, i.parts with
      | some (c, desc), p :: _ => i.leading == some c && desc != p.descending
      | _, _ => false
    if backwards then ordered.reverse else ordered
  if onRowid then rows
  else
    let own := if t.withoutRowid then t.primaryKey else none
    match own.bind fun pk => (pk.leading.bind keyed).map fun _ => pk with
    | some pk => walk pk
    | none =>
      let candidates := (t.indexes.filter fun i =>
        !i.primary || !t.withoutRowid).reverse.filter fun i =>
          i.filter.isNone && match i.leading with
            | some c => (keyed c).isSome &&
              (i.parts.head?.map (·.collation)) == ((t.columns[c]?).map (·.collation))
            | none => false
      let isEq (i : Index) : Bool := ((i.leading.bind keyed)).getD false
      -- an equality before a range, then one that holds every column read,
      -- then the narrowest, the newest of equal ones
      let rank (i : Index) : Nat × Nat × Int :=
        (if isEq i then 0 else 1, if i.covers t uses then 0 else 1, t.indexWidth i)
      let better (a b : Index) : Bool :=
        let (x1, y1, z1) := rank a
        let (x2, y2, z2) := rank b
        x1 < x2 || (x1 == x2 && (y1 < y2 || (y1 == y2 && z1 < z2)))
      let pick := (candidates.find? fun i => isEq i && i.unique && i.parts.length == 1).orElse fun _ =>
        candidates.foldl (fun best i => match best with
          | some b => if better i b then some i else some b
          | none => some i) none
      match pick with
      | some i => walk i
      | none =>
        match fullScanIndex t uses with
        | some i => walk i
        | none => rows

/-! ## Evaluation -/

/-- How deeply expressions and queries may nest. -/
def evalFuel : Nat := 4096

/-- How many rows a recursive query gives at most. -/
def recursionLimit : Nat := 1000000

/-- The name of a query's result column: its alias, the name of the column
it reads (through any `COLLATE`), or its text. -/
def resultName (sc : Scope) (e : Expr) (given : Option String) (text : String) : String :=
  match given with
  | some a => a
  | none =>
    match (peelCollate e).1 with
    | .column q n _ => ((sc.find? q n).map (·.1.name)).getD n
    | _ => text

/-- The columns a query shows: `*` stands for each column of its sources
that an unqualified name reaches, `t.*` for every column of `t`. -/
def expandItems (shape : List Frame) (cols : List ResultColumn) : List (Expr × Option String × String) :=
  cols.flatMap fun c => match c with
    | .star none => shape.zipIdx.flatMap fun (f, i) =>
        f.columns.zipIdx.filterMap fun (ci, j) =>
          if f.hidden.any (sameName · ci.name) then none else some (.sourceColumn i j, none, ci.name)
    | .star (some l) => shape.zipIdx.flatMap fun (f, i) =>
        if sameName l f.label then f.columns.zipIdx.map fun (ci, j) => (.sourceColumn i j, none, ci.name)
        else []
    | .expr e a t => [(e, a, t)]

/-- The argument lists of an aggregate's rows with repeats left out, the
first of equal ones kept: two lists are repeats when their first values
are equal under the collation, nulls equal to each other. -/
def distinctRows (coll : Collation) (rows : List (List Value)) : List (List Value) :=
  rows.foldl (fun kept r =>
    let v := r.getD 0 .null
    if kept.any fun k => Value.compareWith coll (k.getD 0 .null) v == .eq then kept else kept ++ [r]) []

/-- Groups consecutive rows with equal keys. -/
def groupRuns {α : Type} (same : α → α → Bool) : List α → List (List α)
  | [] => []
  | x :: rest =>
    match groupRuns same rest with
    | (y :: ys) :: more => if same x y then (x :: y :: ys) :: more else [x] :: (y :: ys) :: more
    | _ => [[x]]

/-- The integer of a `LIMIT` or `OFFSET` value, if it is one. -/
def countOf (v : Value) : Except String Int :=
  match v.withAffinity .numeric with
  | .int i => .ok i
  | _ => .error "datatype mismatch"

/-- Puts values, in order, in place of the aggregate calls of expressions. -/
def fillAggregates (es : List Expr) (values : List Value) : List Expr :=
  (Id.run ((Expr.fillIn es).run values)).1

/-- The `min` and `max` calls among aggregate calls, each with whether it
is `max` and its argument. -/
def extremeCalls (aggs : List Expr) : List (Bool × Expr) :=
  aggs.filterMap fun a => match a with
    | .call name [x] false false _ =>
      let l := name.toLower
      if l == "min" then some (false, x) else if l == "max" then some (true, x) else none
    | _ => none

/-- One row's step of `min` or `max`: the best value so far, and whether
the row left it as it was, in which case the row's bare columns are not
read. -/
def stepExtreme (isMax : Bool) (coll : Collation) (best : Option Value) (v : Value) : Option Value × Bool :=
  match best with
  | none => if v.isNull then (none, false) else (some v, false)
  | some b =>
    if v.isNull then (some b, true)
    else
      let cmp := Value.compareWith coll b v
      if (isMax && cmp == .lt) || (!isMax && cmp == .gt) then (some v, false) else (some b, true)

/-- Output rows with their sort keys, repeats of a row left out. -/
def dedupeKeyed (colls : List Collation) (rows : List (Array Value × List Value)) : List (Array Value × List Value) :=
  rows.foldl (fun kept r => if kept.any fun k => sameRow colls k.1 r.1 then kept else kept ++ [r]) []

/-- The collation of `x IN (query)`: the left side's, else that of the
query's first column. -/
def inCollation (left : Option (Collation × Bool)) (first : Option ColumnInfo) : Collation :=
  match left with
  | some (c, _) => c
  | none => (first.map (·.collation)).getD .binary

/-- The collation of a sort term: the one written with `COLLATE` around it,
else `dflt`. -/
def termCollation (e : Expr) (dflt : Collation) : Collation :=
  match (peelCollate e).2 with
  | some c => (Collation.ofName? c).getD .binary
  | none => dflt

/-- The kinds of value an expression may give, as the column types of a
compound query weigh them. -/
structure ValueKinds where
  numeric : Bool := false
  text : Bool := false
  blob : Bool := false

def ValueKinds.union (a b : ValueKinds) : ValueKinds :=
  { numeric := a.numeric || b.numeric, text := a.text || b.text, blob := a.blob || b.blob }

def ValueKinds.any : ValueKinds := { numeric := true, text := true, blob := true }

/-- The kinds of value a column of an affinity may hold. -/
def ValueKinds.ofAffinity : Option Affinity → ValueKinds
  | some .text => { text := true, blob := true }
  | some .numeric | some .integer | some .real => { numeric := true, blob := true }
  | _ => .any

mutual

/-- The kinds of value an expression may give. -/
def Scope.valueKinds (sc : Scope) : Expr → ValueKinds
  | .collate e _ => Scope.valueKinds sc e
  | .unary .pos e => Scope.valueKinds sc e
  | .lit .null => {}
  | .lit (.text _ _) => { text := true }
  | .lit (.blob _ _) => { blob := true }
  | .binary .concat _ _ => { text := true, blob := true }
  | .param _ => .any
  | .call .. => .any
  | .column q n _ => .ofAffinity ((sc.find? q n).bind (·.1.affinity))
  | .sourceColumn i j => .ofAffinity ((sc.sourceColumn? i j).bind (·.1.affinity))
  | .cast _ t => .ofAffinity (some (Affinity.ofType t))
  | .scalar _ => .any
  | .caseOf _ arms otherwise => (Scope.valueKindsArms sc arms).union (Scope.valueKindsOpt sc otherwise)
  | _ => { numeric := true }

def Scope.valueKindsArms (sc : Scope) : List (Expr × Expr) → ValueKinds
  | [] => {}
  | (_, r) :: rest => (Scope.valueKinds sc r).union (Scope.valueKindsArms sc rest)

def Scope.valueKindsOpt (sc : Scope) : Option Expr → ValueKinds
  | none => {}
  | some e => Scope.valueKinds sc e

end

/-- The columns of a compound query: those of its first select, except that
a text column, or a numeric one, has no affinity when a later select may
give a number, or a text, in its place. -/
def compoundColumns (first : List ColumnInfo) (later : List (List ValueKinds)) : List ColumnInfo :=
  first.zipIdx.map fun (c, i) =>
    let m := later.foldl (fun (acc : ValueKinds) ks => acc.union (ks.getD i {})) {}
    let aff := match c.affinity with
      | some .text => if !later.isEmpty && m.numeric then some .blob else some .text
      | some a => if !later.isEmpty && a.isNumeric && m.text then some .blob else some a
      | none => none
    { c with affinity := aff }

/-- One select's rows, with what a compound query around it needs to know
of its columns. -/
structure Selected where
  rel : Relation
  /-- The collation each column's expression names, if it names one. -/
  collations : List (Option Collation)
  kinds : List ValueKinds
  /-- Each column's alias and expression. -/
  items : List (Option String × Expr)

/-- Whether two expressions name the same column by name. -/
def sameColumnRef : Expr → Expr → Bool
  | .column q n _, .column q' n' _ =>
    sameName n n' && match q, q' with
      | some a, some b => sameName a b
      | _, _ => true
  | .num a, .num b => a == b
  | _, _ => false

/-- The result column an `ORDER BY` term names among a select's columns,
each with its alias and expression: by the alias, or as the same column. -/
def itemIndex (items : List (Option String × Expr)) (e : Expr) : Option Nat :=
  let byAlias := match e with
    | .column none nm _ => items.findIdx? fun (p : Option String × Expr) => p.1.any (sameName · nm)
    | _ => none
  byAlias.orElse fun _ => items.findIdx? fun (p : Option String × Expr) => sameColumnRef e p.2

/-- The column of a compound query's result that an `ORDER BY` term names,
looking at the selects from the left. -/
def matchColumn (selects : List Selected) (e : Expr) : Option Nat :=
  selects.findSome? fun s => itemIndex s.items e

/-- The result column a term of a single select's `ORDER BY` names by its
alias, if it does. -/
def aliasedItem (items : List (Expr × Option String × String)) : Expr → Option Expr
  | .column none nm _ => (items.find? fun (_, a, _) => a.any (sameName · nm)).map (·.1)
  | _ => none

/-- What a query tells the tables it reads about how it reads them: its
filter, the expressions it evaluates, whether it shows every column, and
its first `ORDER BY` term. -/
structure Access where
  filter : Option Expr := none
  reads : List Expr := []
  star : Bool := false
  order : Option (Expr × Bool) := none

/-- The columns of a table that a query reads under a label. -/
def Access.usedColumns (a : Access) (t : Table) (label : String) : List Nat :=
  if a.star then List.range t.columns.length
  else (a.reads.flatMap Expr.refs).filterMap fun (q, c) =>
    if namesTable t label q c then t.columnIndex c else none

/-- The column of a table the first `ORDER BY` term sorts by, with its
direction. -/
def Access.orderedColumn (a : Access) (t : Table) (label : String) : Option (Nat × Bool) :=
  match a.order with
  | some (.column q c _, desc) =>
    if namesTable t label q c then (t.columnIndex c).map fun i => (i, desc) else none
  | _ => none

/-- A blank row of a table under a label, its rowid null when it has one. -/
def Table.blankFrame (t : Table) (label : String) : Frame :=
  { Frame.blank label t.columnInfos with rowid := if t.withoutRowid then none else some .null }

/-- Where a name's column first stands among frames that an unqualified
name reaches: the frame's place and the column's. -/
def columnPlace (fs : List Frame) (name : String) : Option (Nat × Nat) :=
  fs.zipIdx.findSome? fun (f, i) =>
    if f.shows name then (f.columns.findIdx? fun c => sameName c.name name).map (i, ·) else none

/-- The columns a natural join matches: those of the right side that the
left side has too, in the right side's order. -/
def naturalColumns (ls rs : List Frame) : List String :=
  let names := rs.flatMap fun f => (f.columns.filter fun c => f.shows c.name).map (·.name)
  let distinct := names.foldl (fun acc nm => if acc.any (sameName · nm) then acc else acc ++ [nm]) []
  distinct.filter fun nm => (columnPlace ls nm).isSome

/-- Frames with the named columns hidden from unqualified names. -/
def hideColumns (names : List String) (fs : List Frame) : List Frame :=
  fs.map fun f => { f with hidden := f.hidden ++ names.filter fun nm => f.columns.any (sameName ·.name nm) }

/-- The places of the columns a join matches by name, on the left and on the
right. -/
def joinPairs (ls rs : List Frame) (names : List String) : List ((Nat × Nat) × (Nat × Nat)) :=
  names.filterMap fun nm => match columnPlace ls nm, columnPlace rs nm with
    | some l, some r => some (l, r)
    | _, _ => none

/-- The column at a place among frames, with its value. -/
def placeValue (fs : List Frame) : Nat × Nat → Option (ColumnInfo × Value)
  | (i, j) => (fs[i]?).bind fun f => (f.columns[j]?).map fun c => (c, f.values.getD j .null)

/-- Whether two rows agree on the columns a join matches by name, each pair
compared as `l.x = r.x` is. -/
def usingHolds (pairs : List ((Nat × Nat) × (Nat × Nat))) (l r : List Frame) : Bool :=
  pairs.all fun (lp, rp) =>
    match placeValue l lp, placeValue r rp with
    | some (lc, lv), some (rc, rv) =>
      (compareValue .eq (compareAffinity lc.affinity rc.affinity) lc.collation lv rv).truth == some true
    | _, _ => false

/-- Whether a source names a table directly, outside the queries in it. -/
def Source.reads (nm : String) : Source → Bool
  | .table t _ => sameName t nm
  | .query _ _ => false
  | .join l _ _ r _ _ => l.reads nm || r.reads nm

/-- Whether a select reads a table directly. -/
def Select.reads (nm : String) : Select → Bool
  | .core _ _ (some s) _ _ _ => s.reads nm
  | _ => false

/-- Puts a row into a recursive query's queue: at the end, or with an order
after every row that does not sort after it. -/
def enqueue (keys : List (Nat × SortTerm)) (queue : List (Array Value)) (r : Array Value) : List (Array Value) :=
  if keys.isEmpty then queue ++ [r]
  else
    let key (x : Array Value) : List Value := keys.map fun (k, _) => x.getD k .null
    let terms := keys.map (·.2)
    let (before, after) := queue.span fun x => compareBy terms (key x) (key r) != .gt
    before ++ r :: after

/-- The column a recursive query's `ORDER BY` term names: by its place, or
by a column's name. -/
def recursiveOrderColumn (columns : List ColumnInfo) (e : Expr) : Option Nat :=
  let base := (peelCollate e).1
  match base.smallInteger? with
  | some k => if 1 ≤ k && k.toNat ≤ columns.length then some (k.toNat - 1) else none
  | none =>
    match base with
    | .column none nm _ => columns.findIdx? fun c => sameName c.name nm
    | _ => none

mutual

/-- The value of an expression in a scope. -/
def eval : Nat → Scope → Expr → Run Value
  | 0, _, _ => Run.fail "expression nests too deeply"
  | n + 1, sc, e =>
    match e with
    | .lit v => do pure (v.inEncoding (← get).encoding)
    | .num t => Run.ofExcept (literalValue t false)
    | .unary .neg (.num t) => Run.ofExcept (literalValue t true)
    | .column q name quoted =>
      match sc.find? q name with
      | some (_, v) => pure v
      | none =>
        if quoted && q.isNone then do pure ((Value.ofString name).inEncoding (← get).encoding)
        else match q, trueFalseValue name with
          | none, some b => pure (ofBool b)
          | _, _ => Run.fail (noSuchColumn q name)
    | .sourceColumn i j => pure (((sc.sourceColumn? i j).map (·.2)).getD .null)
    | .param i => pure (sc.params.getD (i - 1) .null)
    | .unary op a => do pure (unaryValue op (← eval n sc a))
    | .binary .and a b => do
      let x := (← eval n sc a).truth
      if x == some false then pure (ofBool false)
      else pure (ofTruth (andTruth x (← eval n sc b).truth))
    | .binary .or a b => do
      let x := (← eval n sc a).truth
      if x == some true then pure (ofBool true)
      else pure (ofTruth (orTruth x (← eval n sc b).truth))
    | .binary .concat a b => do
      let x ← eval n sc a
      let y ← eval n sc b
      let enc := (← get).encoding
      -- the bytes of both sides in the database's encoding, a blob's as
      -- they are; under UTF-16 the text keeps whole code units
      match x.encoded enc, y.encoded enc with
      | some p, some q =>
        let joined := p ++ q
        pure (.text (if enc == .utf8 then joined else joined.extract 0 (joined.size / 2 * 2)) enc)
      | _, _ => pure .null
    | .binary op a b => do
      match sc.truthTest op b with
      | some want =>
        let hit := (← eval n sc a).truth == some want
        pure (ofBool (if op == .is then hit else !hit))
      | none =>
      let x ← eval n sc a
      let y ← eval n sc b
      if op.compares then
        pure (compareValue op (compareAffinity (sc.affinityOf a) (sc.affinityOf b)) (sc.pairCollation a b) x y)
      else pure (arith op x y)
    | .between x lo hi negated => do
      let v ← eval n sc x
      let l ← eval n sc lo
      let h ← eval n sc hi
      let ge := (comparison (compareAffinity (sc.affinityOf x) (sc.affinityOf lo)) (sc.pairCollation x lo) v l).map (· != .lt)
      let le := (comparison (compareAffinity (sc.affinityOf x) (sc.affinityOf hi)) (sc.pairCollation x hi) v h).map (· != .gt)
      let r := andTruth ge le
      pure (ofTruth (if negated then r.map (!·) else r))
    | .inList x items negated => do
      let v ← eval n sc x
      let vs ← items.mapM fun i => eval n sc i
      let coll := match items with
        | i :: _ => sc.pairCollation x i
        | [] => .binary
      let r := membership (sc.affinityOf x) coll v vs
      pure (ofTruth (if negated then r.map (!·) else r))
    | .inQuery x q negated => do
      let v ← eval n sc x
      let rel ← runQuery n sc q
      let first := rel.columns.head?
      let aff := compareAffinity (sc.affinityOf x) (first.bind (·.affinity))
      let r := membership aff (inCollation (sc.collationOf x) first) v (rel.rows.map fun r => r.getD 0 .null)
      pure (ofTruth (if negated then r.map (!·) else r))
    | .rowsExist q => do
      let rel ← runQuery n sc q
      pure (ofBool !rel.rows.isEmpty)
    | .scalar q => do
      let rel ← runQuery n sc q
      pure ((rel.rows.head?.bind (·[0]?)).getD .null)
    | .call name args _ star _ => do
      let f := name.toLower
      if isAggregate f args.length star then Run.fail s!"misuse of aggregate function {name}()"
      else if Json.isFunction f then do pure ((← evalMarked n sc e).value.inEncoding (← get).encoding)
      else
        let enc := (← get).encoding
        let vs ← args.mapM fun a => eval n sc a
        let vs := bytesArgs enc f vs
        let coll := match args with
          | a :: _ => ((sc.collationOf a).map Prod.fst).getD .binary
          | [] => .binary
        match ← connectionCall f vs with
        | some v => pure (v.inEncoding enc)
        | none => do
          let v ← Run.ofExcept (callScalar f coll vs)
          pure (if passesValue f then v else v.inEncoding enc)
    | .cast x t => do pure ((← eval n sc x).castTo (← get).encoding t)
    | .collate x _ => eval n sc x
    | .caseOf operand arms otherwise => do
      match ← chooseArm n sc operand arms otherwise with
      | some r => eval n sc r
      | none => pure .null
    | .like glob a p esc negated => do
      let y ← eval n sc p
      let x ← eval n sc a
      let e ← match esc with
        | some ee => do pure (some (← eval n sc ee))
        | none => pure none
      let r ← Run.ofExcept (Pattern.like glob y x e)
      pure (if negated then unaryValue .not r else r)
    | .raise action message =>
      match action with
      | .ignore => throw .ignore
      | .fail => Run.failAs .fail message
      | _ => Run.fail message

/-- The result a `CASE` takes: that of its first arm whose condition holds,
or whose value equals the operand, else its `ELSE`, if any. -/
def chooseArm : Nat → Scope → Option Expr → List (Expr × Expr) → Option Expr → Run (Option Expr)
  | 0, _, _, _, _ => Run.fail "expression nests too deeply"
  | n + 1, sc, operand, arms, otherwise => do
    let subject ← match operand with
      | some o => do pure (some (← eval n sc o))
      | none => pure none
    let mut chosen : Option Expr := none
    for (w, t) in arms do
      if chosen.isNone then
        let c ← eval n sc w
        let hit : Bool := match subject, operand with
          | some s, some o =>
            comparison (compareAffinity (sc.affinityOf o) (sc.affinityOf w)) (sc.pairCollation o w) s c == some .eq
          | _, _ => c.truth == some true
        if hit then chosen := some t
    pure (chosen.orElse fun _ => otherwise)

/-- The value of an expression, and whether it is JSON text that a JSON
function made, which another JSON function takes as JSON: the result of
such a call, also as chosen by `CASE`, `COALESCE`, `IFNULL` or `IIF`, or
under `COLLATE`. -/
def evalMarked : Nat → Scope → Expr → Run Json.Marked
  | 0, _, _ => Run.fail "expression nests too deeply"
  | n + 1, sc, e =>
    match e with
    | .call name args _ _ _ =>
      let f := name.toLower
      if Json.isFunction f then do
        let vs ← args.mapM fun a => evalMarked n sc a
        match Json.call f vs with
        | some r => Run.ofExcept r
        | none => pure { value := .null }
      else if f == "coalesce" || f == "ifnull" then do
        let mut found : Json.Marked := { value := .null }
        for a in args do
          if found.value.isNull then found ← evalMarked n sc a
        pure found
      else if f == "iif" && args.length == 3 then do
        let c ← eval n sc (args.headD (.lit .null))
        evalMarked n sc (if c.truth == some true then args.getD 1 (.lit .null) else args.getD 2 (.lit .null))
      else do pure { value := ← eval n sc e }
    | .collate x _ => evalMarked n sc x
    | .caseOf operand arms otherwise => do
      match ← chooseArm n sc operand arms otherwise with
      | some r => evalMarked n sc r
      | none => pure { value := .null }
    | _ => do pure { value := ← eval n sc e }

/-- The rows of a query. -/
def runQuery : Nat → Scope → Query → Run Relation
  | 0, _, _ => Run.fail "query nests too deeply"
  | n + 1, sc, .mk ctes first rest orderBy limit offset => do
    let sc := { sc with ctes := ctes.map CteRows.query ++ sc.ctes }
    let take ← match limit with
      | some l => do Run.ofExcept (countOf (← eval n sc l))
      | none => pure (-1)
    let skip ← match offset with
      | some o => do Run.ofExcept (countOf (← eval n sc o))
      | none => pure 0
    let rel ← match first, rest with
      | .core .., [] => do pure (← runSelect n sc first orderBy).rel
      | _, _ => runCompound n sc first rest orderBy
    let rows := rel.rows.drop skip.toNat
    pure { rel with rows := if take < 0 then rows else rows.take take.toNat }

/-- The rows of one select; `orderBy` sorts them when the select is the
whole query. -/
def runSelect : Nat → Scope → Select → List OrderTerm → Run Selected
  | 0, _, _, _ => Run.fail "query nests too deeply"
  | n + 1, sc, .values rows, _ => do
    let out ← rows.mapM fun r => do pure (← r.mapM (eval n sc ·)).toArray
    let first := rows.head?.getD []
    let columns := first.zipIdx.map fun (_, i) =>
      { name := s!"column{i + 1}", affinity := none, collation := .binary : ColumnInfo }
    pure { rel := { columns, rows := out },
           collations := first.map fun e => (sc.collationOf e).map Prod.fst,
           kinds := first.map sc.valueKinds,
           items := first.map fun e => (none, e) }
  | n + 1, sc, .core distinct cols src filter groupBy having, orderBy => do
    let access : Access :=
      { filter,
        reads := cols.filterMap (fun c => match c with
            | .expr e _ _ => some e
            | .star _ => none) ++ filter.toList ++ orderBy.map (·.expr) ++ groupBy ++ having.toList,
        star := cols.any fun c => match c with
          | .star _ => true
          | _ => false,
        order := orderBy.head?.map fun t => (t.expr, t.descending) }
    let (shape, combos) ← match src with
      | none => pure ([], [[]])
      | some s => sourceRows n sc s access
    let here := sc.pushAll shape
    let items := expandItems shape cols
    let columns := items.map fun (e, a, t) =>
      { name := resultName here e a t, affinity := here.affinityOf e,
        collation := ((here.collationOf e).map Prod.fst).getD .binary : ColumnInfo }
    -- an alias stands for its result column's expression wherever no column
    -- of the query's own sources has its name
    let own (nm : String) : Bool := shape.any fun f => f.shows nm || (f.rowid.isSome && isRowidName nm)
    let aliasOf (nm : String) : Option Expr := if own nm then none else aliasedItem items (.column none nm false)
    let byPlace (clause : String) (i : Nat) (k : Int) (coll : Option String) : Run Expr :=
      match (if 1 ≤ k then items[k.toNat - 1]? else none) with
      | some (e, _, _) => pure (withCollate e coll)
      | none => Run.fail (outOfRange clause (i + 1) items.length)
    let filter := filter.map (·.substNames aliasOf)
    let having := having.map (·.substNames aliasOf)
    let groupBy ← groupBy.zipIdx.mapM fun (g, i) => do
      match (peelCollate g).1.smallInteger? with
      | some k => byPlace "GROUP" i k (peelCollate g).2
      | none => pure (g.substNames aliasOf)
    let order ← orderBy.zipIdx.mapM fun (t, i) => do
      let (base, coll) := peelCollate t.expr
      match aliasedItem items base, base.smallInteger? with
      | some e, _ => pure (withCollate e coll, t)
      | none, some k => do pure (← byPlace "ORDER" i k coll, t)
      | none, none => pure (t.expr.substNames aliasOf, t)
    let sortTerms : List SortTerm := order.map fun (e, t) =>
      { collation := ((here.collationOf e).map Prod.fst).getD .binary, descending := t.descending,
        nullsFirst := t.nullsFirst.getD !t.descending }
    let orderExprs := order.map (·.1)
    let kept ← combos.filterM fun c => do
      match filter with
      | none => pure true
      | some w => pure ((← eval n (sc.pushAll c) w).truth == some true)
    let itemExprs := items.map (·.1)
    let aggs := (itemExprs ++ having.toList ++ orderExprs).flatMap Expr.aggregates
    -- each output row with its sort key
    let mut out : List (Array Value × List Value) := []
    if !groupBy.isEmpty || !aggs.isEmpty then
      let groupTerms : List SortTerm := groupBy.map fun g =>
        { collation := ((here.collationOf g).map Prod.fst).getD .binary }
      let keyed ← kept.mapM fun c => do
        let k ← groupBy.mapM fun g => eval n (sc.pushAll c) g
        pure (c, k)
      let sorted := keyed.mergeSort fun a b => compareBy groupTerms a.2 b.2 != .gt
      let groups := if groupBy.isEmpty then [kept]
        else (groupRuns (fun a b => compareBy groupTerms a.2 b.2 == .eq) sorted).map (·.map (·.1))
      let extremes := extremeCalls ((itemExprs ++ orderExprs ++ having.toList).flatMap Expr.aggregates)
      for g in groups do
        let mut values : List Value := []
        for a in aggs do
          match a with
          | .call name args distinct star _ =>
            if Json.isAggregate name.toLower then
              let argRows ← g.mapM fun c => args.mapM fun x => evalMarked n (sc.pushAll c) x
              values := values ++ [(← Run.ofExcept (Json.aggregate name.toLower argRows)).inEncoding (← get).encoding]
            else
              let argRows ← g.mapM fun c => args.mapM fun x => eval n (sc.pushAll c) x
              let coll := ((args.head?.bind here.collationOf).map (·.1)).getD .binary
              let argRows := if distinct then distinctRows coll argRows else argRows
              values := values ++ [(← Run.ofExcept (callAggregate name.toLower coll star argRows)).inEncoding (← get).encoding]
          | _ => values := values ++ [.null]
        -- the row the group's bare columns come from: its first, or with
        -- `min` or `max`, the last that the last of them took
        let mut rep : Option (List Frame) := none
        let mut bests : List (Option Value) := extremes.map fun _ => none
        for c in g do
          let mut skipped := false
          let mut next : List (Option Value) := []
          for ((isMax, x), best) in extremes.zip bests do
            let v ← eval n (sc.pushAll c) x
            let coll := ((here.collationOf x).map Prod.fst).getD .binary
            let (b, s) := stepExtreme isMax coll best v
            next := next ++ [b]
            skipped := s
          bests := next
          if extremes.isEmpty then
            if rep.isNone then rep := some c
          else if !skipped then rep := some c
        let repRow := rep.getD (shape.map Frame.nulled)
        let rowScope := sc.pushAll repRow
        let itemsFilled := fillAggregates itemExprs values
        let havingFilled := (fillAggregates (itemExprs ++ having.toList) values).drop items.length
        let orderFilled := (fillAggregates (itemExprs ++ having.toList ++ orderExprs) values).drop
          (items.length + having.toList.length)
        let pass ← match havingFilled with
          | h :: _ => do pure ((← eval n rowScope h).truth == some true)
          | [] => pure true
        if pass then
          let row ← itemsFilled.mapM fun x => eval n rowScope x
          let key ← orderFilled.mapM fun x => eval n rowScope x
          out := out ++ [(row.toArray, key)]
    else
      for c in kept do
        let row ← itemExprs.mapM fun x => eval n (sc.pushAll c) x
        let key ← orderExprs.mapM fun x => eval n (sc.pushAll c) x
        out := out ++ [(row.toArray, key)]
    let unique := if distinct then dedupeKeyed (columns.map (·.collation)) out else out
    let sorted := if order.isEmpty then unique else unique.mergeSort fun a b => compareBy sortTerms a.2 b.2 != .gt
    pure { rel := { columns, rows := sorted.map (·.1) },
           collations := itemExprs.map fun e => (here.collationOf e).map Prod.fst,
           kinds := itemExprs.map here.valueKinds,
           items := items.map fun (e, a, _) => (a, e) }

/-- The rows of a compound query, or of a `VALUES` list.  Without an
`ORDER BY` the set operations work as sorted sets; with one, each side is
sorted by it (and, unless every operation from there on is `UNION ALL`, by
every other column after it) and the sides are merged. -/
def runCompound : Nat → Scope → Select → List (SetOp × Select) → List OrderTerm → Run Relation
  | 0, _, _, _, _ => Run.fail "query nests too deeply"
  | n + 1, sc, first, rest, orderBy => do
    let s0 ← runSelect n sc first []
    let arms ← rest.mapM fun (op, s) => do pure (op, ← runSelect n sc s [])
    let selects := s0 :: arms.map (·.2)
    let width := s0.rel.columns.length
    let colls : List Collation := (List.range width).map fun i =>
      (selects.findSome? fun s => (s.collations[i]?).join).getD .binary
    let columns := compoundColumns s0.rel.columns (arms.map (·.2.kinds))
    if orderBy.isEmpty then
      let terms := ascendingTerms colls
      pure { columns, rows := arms.foldl (fun acc (op, s) => combineRows op terms acc s.rel.rows) s0.rel.rows }
    else
      let keys ← orderBy.zipIdx.mapM fun (t, i) => do
        let base := (peelCollate t.expr).1
        let k ← match base.smallInteger? with
          | some k =>
            if 1 ≤ k && k.toNat ≤ width then pure (k.toNat - 1)
            else Run.fail (outOfRange "ORDER" (i + 1) width)
          | none =>
            match matchColumn selects base with
            | some k => pure k
            | none => Run.fail s!"{ordinalText (i + 1)} ORDER BY term does not match any column in the result set"
        pure (k, { collation := termCollation t.expr (colls.getD k .binary), descending := t.descending,
                   nullsFirst := t.nullsFirst.getD !t.descending : SortTerm })
      let named := keys.map (·.1)
      let extra : List (Nat × SortTerm) := ((List.range width).filter fun k => !named.contains k).map
        fun k => (k, { collation := colls.getD k .binary })
      let termsAt (i : Nat) : List (Nat × SortTerm) :=
        if (rest.drop i).any (·.1 != .unionAll) then keys ++ extra else keys
      let order (terms : List (Nat × SortTerm)) (a b : Array Value) : Ordering :=
        compareBy (terms.map (·.2)) (terms.map fun (k, _) => a.getD k .null) (terms.map fun (k, _) => b.getD k .null)
      let sortBy (terms : List (Nat × SortTerm)) (rows : List (Array Value)) : List (Array Value) :=
        rows.mergeSort fun a b => order terms a b != .gt
      let mut acc := sortBy (termsAt 0) s0.rel.rows
      for ((op, s), i) in arms.zipIdx do
        let terms := termsAt i
        acc := mergeRows op (order terms) (sameRow colls) (acc.length + s.rel.rows.length + 1)
          acc (sortBy terms s.rel.rows) none
      pure { columns, rows := acc }

/-- The rows of a table a `WITH` clause names.  A query whose last selects
read the table itself is recursive: the selects before them give the first
rows, each row taken from the front of a queue (or, with an `ORDER BY`, the
least) is given out and the recursive selects run on it alone, their rows
going to the back of the queue; under `UNION` a row seen before is not
queued again.  `LIMIT` and `OFFSET` count the rows given out. -/
def cteRows : Nat → Scope → Cte → Run Relation
  | 0, _, _ => Run.fail "query nests too deeply"
  | n + 1, sc, .mk name cols q =>
    match q with
    | .mk ctes first rest orderBy limit offset => do
      let trailing := (rest.reverse.takeWhile fun (_, s) => s.reads name).length
      match rest.drop (rest.length - trailing) with
      | [] => pure ((← runQuery n sc q).named cols)
      | (_, step0) :: steps =>
        let sc := { sc with ctes := ctes.map CteRows.query ++ sc.ctes }
        let setup ← runQuery n sc (.mk [] first (rest.take (rest.length - trailing)) [] none none)
        let start := setup.named cols
        let columns := start.columns
        let stepQuery : Query := .mk [] step0 (steps.map fun (_, s) => (.unionAll, s)) [] none none
        let distinct := (rest.getLast?.map (·.1 == .union)).getD false
        let colls := columns.map (·.collation)
        let take ← match limit with
          | some l => do Run.ofExcept (countOf (← eval n sc l))
          | none => pure (-1)
        let skip ← match offset with
          | some o => do Run.ofExcept (countOf (← eval n sc o))
          | none => pure 0
        let keys : List (Nat × SortTerm) := orderBy.filterMap fun t =>
          (recursiveOrderColumn columns t.expr).map fun k =>
            (k, { collation := termCollation t.expr (colls.getD k .binary), descending := t.descending,
                  nullsFirst := t.nullsFirst.getD !t.descending })
        let mut queue : List (Array Value) := []
        let mut seen : List (Array Value) := []
        for r in start.rows do
          if !(distinct && seen.any (sameRow colls r)) then
            if distinct then seen := seen ++ [r]
            queue := enqueue keys queue r
        let mut out : List (Array Value) := []
        let mut passed : Int := 0
        if take != 0 then
          for _ in [0:recursionLimit] do
            match queue with
            | [] => break
            | r :: more =>
              queue := more
              if passed < skip then passed := passed + 1 else out := out ++ [r]
              if take > 0 && out.length ≥ take.toNat then break
              let rel ← runQuery n { sc with ctes := .fixed name { columns, rows := [r] } :: sc.ctes } stepQuery
              for x in rel.rows do
                if !(distinct && seen.any (sameRow colls x)) then
                  if distinct then seen := seen ++ [x]
                  queue := enqueue keys queue x
        pure { columns, rows := out }

/-- The rows a source gives, each as the frames of its tables from the left,
in the order the query visits them, with blank frames that give their
shape.  A join pairs each left row with the right rows that match on the
columns it names (or, natural, on those both sides have) and on its `ON`
term; a left join keeps a left row that matched nothing beside nulls, a
right join then adds the right rows that matched nothing. -/
def sourceRows : Nat → Scope → Source → Access → Run (List Frame × List (List Frame))
  | 0, _, _, _ => Run.fail "query nests too deeply"
  | n + 1, sc, .table name given, access => do
    let label := given.getD name
    let ofRelation (rel : Relation) : List Frame × List (List Frame) :=
      ([Frame.blank label rel.columns], rel.rows.map fun r => [{ label, columns := rel.columns, values := r }])
    match sc.ctes.find? fun c => sameName c.name name with
    | some (.fixed _ rel) => pure (ofRelation rel)
    | some (.query c) => do pure (ofRelation (← cteRows n sc c))
    | none =>
      let db ← get
      match db.catalog.table? name with
      | some t =>
        readable t.name
        let rows := plannedRows t label access.filter (access.usedColumns t label)
          (access.orderedColumn t label) (db.rowsOf t.name)
        pure ([t.blankFrame label], rows.map fun r => [t.frame label r])
      | none =>
        match db.catalog.view? name with
        | some v => do pure (ofRelation ((← runQuery n {} v.query).named v.columns))
        | none => Run.fail s!"no such table: {name}"
  | n + 1, sc, .query q given, _ => do
    let rel := (← runQuery n sc q).named none
    let label := given.getD ""
    pure ([Frame.blank label rel.columns], rel.rows.map fun r => [{ label, columns := rel.columns, values := r }])
  | n + 1, sc, .join left kind natural right condition usingColumns, access => do
    let (ls, lrows) ← sourceRows n sc left access
    let (rs, rrows) ← sourceRows n sc right access
    let names := if natural then naturalColumns ls rs else usingColumns
    let pairs := joinPairs ls rs names
    let rs := hideColumns names rs
    let rrows := rrows.map (hideColumns names)
    let mut out : List (List Frame) := []
    let mut matched : List Bool := rrows.map fun _ => false
    for l in lrows do
      let mut flags : List Bool := []
      for r in rrows do
        let ok ← if !usingHolds pairs l r then pure false
          else match condition with
            | none => pure true
            | some c => do pure ((← eval n (sc.pushAll (l ++ r)) c).truth == some true)
        if ok then out := out ++ [l ++ r]
        flags := flags ++ [ok]
      matched := (matched.zip flags).map fun (a, b) => a || b
      if !flags.any id && (kind == .left || kind == .full) then out := out ++ [l ++ rs.map Frame.nulled]
    if kind == .right || kind == .full then
      for (r, m) in rrows.zip matched do
        if !m then out := out ++ [ls.map Frame.nulled ++ r]
    pure (ls ++ rs, out)

end

/-- The value of an expression. -/
def evalIn (sc : Scope) (e : Expr) : Run Value := eval evalFuel sc e

/-- The rows of a query. -/
def query (sc : Scope) (q : Query) : Run Relation := runQuery evalFuel sc q

end Sql
end PowChain
