import PowChain.Sql.Resolve
import PowChain.Store.Map

/-!
# The store's statements

A store in a database keeps its entries in the table, or view, `kv`, with a
column `key` and a column `value`, and reaches them with four statements:

* a lookup, `SELECT value FROM kv WHERE key = ?1`, whose first row gives the
  value;
* a scan, `SELECT key, value FROM kv WHERE key >= ?1 ORDER BY key ASC`;
* a write, `INSERT OR REPLACE INTO kv (key, value) VALUES (?1, ?2)`;
* a delete, `DELETE FROM kv WHERE key = ?1`.

Keys and values are bound as blobs.  A statement is first prepared against a
schema (see `Catalog.prepare`), which fails it when `kv` is missing, when a
name it uses is no column of `kv`, when it would change a view that has no
trigger to do it instead, and when a view it reads or a trigger it could fire
cannot be prepared; then it runs on the database.
-/

namespace PowChain
namespace KvTable

open Sql

/-- The name of the table. -/
def name : String := "kv"

def keyRef : Expr := .column none "key" false

def valueRef : Expr := .column none "value" false

def lookupQuery : Query :=
  .ofSelect (.core false [.expr valueRef none "value"] (some (.table name none))
    (some (.binary .eq keyRef (.param 1))) [] none)

def scanQuery : Query :=
  .mk [] (.core false [.expr keyRef none "key", .expr valueRef none "value"] (some (.table name none))
    (some (.binary .ge keyRef (.param 1))) [] none) [] [.mk keyRef false none] none none

def writeStmt : Stmt :=
  .insert (some .replace) name (some ["key", "value"]) (.values [[.param 1, .param 2]]) []

def deleteStmt : Stmt := .delete name (some (.binary .eq keyRef (.param 1)))

/-- The message of a failure to evaluate. -/
def haltMessage : Halt → String
  | .fail m => m
  | .ignore => "RAISE() may only be used within a trigger-program"

/-- The texts of the four statements, as a failure to prepare one quotes
it. -/
def lookupText : String := "SELECT value FROM kv WHERE key = ?1"
def scanText : String := "SELECT key, value FROM kv WHERE key >= ?1 ORDER BY key ASC"
def writeText : String := "INSERT OR REPLACE INTO kv (key, value) VALUES (?1, ?2)"
def deleteText : String := "DELETE FROM kv WHERE key = ?1"

/-- Prepares the lookup. -/
def prepareLookup (c : Catalog) : Option String :=
  (c.prepare (.select lookupQuery)).map (·.describe lookupText)

/-- Prepares the scan. -/
def prepareScan (c : Catalog) : Option String :=
  (c.prepare (.select scanQuery)).map (·.describe scanText)

/-- Prepares the write, with the triggers it could fire. -/
def prepareWrite (c : Catalog) : Option String := (c.prepare writeStmt).map (·.describe writeText)

/-- Prepares the delete, with the triggers it could fire. -/
def prepareDelete (c : Catalog) : Option String := (c.prepare deleteStmt).map (·.describe deleteText)

/-- Runs a computation on a database. -/
def runOn {α : Type} (db : Database) (x : Run α) : Except String (α × Database) :=
  match x.run db with
  | .ok r => .ok r
  | .error h => .error (haltMessage h)

/-- The first row of the lookup: the value and the name of its column. -/
def lookup (db : Database) (k : ByteArray) : Except String (Option (Value × String)) := do
  let (rel, _) ← runOn db (query { params := #[.blob k .utf8] } lookupQuery)
  let colName := ((rel.columns.head?).map (·.name)).getD "value"
  pure ((rel.rows.head?).map fun r => (r.getD 0 .null, colName))

/-- The rows of the scan, and the names of its two columns. -/
def scan (db : Database) (p : ByteArray) : Except String (List (Value × Value) × String × String) := do
  let (rel, _) ← runOn db (query { params := #[.blob p .utf8] } scanQuery)
  let names := rel.columns.map (·.name)
  pure (rel.rows.map fun r => (r.getD 0 .null, r.getD 1 .null), names.getD 0 "key", names.getD 1 "value")

/-- The database after the write of one entry. -/
def write (db : Database) (k v : ByteArray) : Except String Database := do
  let (_, db) ← runOn db (Database.run writeStmt #[.blob k .utf8, .blob v .utf8] (db.catalog.uncheckedKeys writeStmt))
  pure db

/-- The database after the delete of one key. -/
def delete (db : Database) (k : ByteArray) : Except String Database := do
  let (_, db) ← runOn db (Database.run deleteStmt #[.blob k .utf8] (db.catalog.uncheckedKeys deleteStmt))
  pure db

end KvTable
end PowChain
