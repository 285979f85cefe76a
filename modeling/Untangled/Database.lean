import Mathlib.Data.String.Basic
import Untangled.SchemaCatalog

/-!
# The database under a migration

The catalog of `SchemaCatalog` together with the rows, and what the statement of
each operation does to both.  What a statement refuses for other reasons, such as
a value that occurs twice in a unique index, is left to the faults of the program
that sends it.
-/

namespace Untangled.Schema

/-! ## Identifiers -/

/-- `NAMEDATALEN - 1` -/
def maxIdentifierBytes : ℕ := 63

def clip : ℕ → List Char → List Char
  | _, [] => []
  | room, c :: rest =>
      if c.utf8Size ≤ room then c :: clip (room - c.utf8Size) rest else []

/-- The name under which an object is kept: it is cut off after the last character
that still fits. -/
def identifier (n : String) : String :=
  String.ofList (clip maxIdentifierBytes n.toList)

/-! ## Rows and tables -/

/-- The values of a row by column; none is `NULL`. -/
abbrev Row (V : Type) := String → Option V

def Row.set {V : Type} (r : Row V) (column : String) (v : Option V) : Row V :=
  fun n => if n = column then v else r n

/-- A row of a table.  Rows are told apart by their keys, which no statement
sees. -/
structure StoredRow (V : Type) where
  key : ℕ
  table : String
  values : Row V

inductive DefaultExpr
  | literal (value : AddDefaultValue)
  | now
  deriving DecidableEq

structure ColumnDefault where
  table : String
  column : String
  value : DefaultExpr
  deriving DecidableEq

structure Database (V : Type) where
  catalog : Catalog
  defaults : List ColumnDefault
  rows : List (StoredRow V)
  nextKey : ℕ

/-- What the server knows of values and of expressions. -/
structure Server (V : Type) where
  /-- A literal or parameter as a value of a column type, if it is one. -/
  value : String → AddDefaultValue → Option V
  /-- A value in a column whose type changes. -/
  convert : String → V → Option V
  text : V → Option String
  int : V → Option ℤ
  now : String
  /-- The text is one expression, and to evaluate it changes nothing. -/
  isExpression : String → Bool
  /-- `pg_get_constraintdef` -/
  constraintDefinition : CheckIR → String
  /-- What the statement for a check of a table executes if its text is not such
  an expression. -/
  script : String → CheckIR → Database V → Option (Database V)

/-! ## Names as they are kept -/

def ColumnIR.stored (c : ColumnIR) : ColumnIR := { c with name := identifier c.name }

def ForeignKeyIR.stored (fk : ForeignKeyIR) : ForeignKeyIR where
  name := identifier fk.name
  columns := fk.columns.map identifier
  referencedTable := identifier fk.referencedTable
  referencedColumns := fk.referencedColumns.map identifier

def IndexIR.stored (i : IndexIR) : IndexIR :=
  { i with name := identifier i.name, columns := i.columns.map identifier }

def CheckIR.stored (c : CheckIR) : CheckIR := { c with name := identifier c.name }

def TableIR.stored (t : TableIR) : TableIR where
  name := identifier t.name
  columns := t.columns.map ColumnIR.stored
  primaryKey := t.primaryKey.map identifier
  foreignKeys := t.foreignKeys.map ForeignKeyIR.stored
  indexes := t.indexes.map IndexIR.stored
  checks := t.checks.map CheckIR.stored

/-- The operation with the names that the server makes of those in its
statement. -/
def MigrationOp.stored : MigrationOp → MigrationOp
  | .createTable t => .createTable t.stored
  | .dropTable n => .dropTable (identifier n)
  | .addColumn t c d => .addColumn (identifier t) c.stored d
  | .dropColumnDefault t n => .dropColumnDefault (identifier t) (identifier n)
  | .dropColumn t n => .dropColumn (identifier t) (identifier n)
  | .alterColumnType t n fromType toType =>
      .alterColumnType (identifier t) (identifier n) fromType toType
  | .alterColumnNullability t n nullable =>
      .alterColumnNullability (identifier t) (identifier n) nullable
  | .addForeignKey t fk => .addForeignKey (identifier t) fk.stored
  | .dropForeignKey t n => .dropForeignKey (identifier t) (identifier n)
  | .createIndex t i => .createIndex (identifier t) i.stored
  | .dropIndex n => .dropIndex (identifier n)
  | .createSequence s => .createSequence { s with name := identifier s.name }
  | .dropSequence n => .dropSequence (identifier n)
  | .addCheck t c => .addCheck (identifier t) c.stored
  | .dropCheck t n => .dropCheck (identifier t) (identifier n)

def MigrationOp.droppedTable : MigrationOp → Option String
  | .dropTable n => some n
  | _ => none

/-- The objects are there that the statement names.  A table is dropped with
`CASCADE`. -/
def MigrationOp.Performable (cat : Catalog) (op : MigrationOp) : Prop :=
  match op.droppedTable with
  | some n => cat.HasTable n
  | none => op.Allowed cat

instance (cat : Catalog) (op : MigrationOp) : Decidable (op.Performable cat) :=
  match h : op.droppedTable with
  | some n => decidable_of_iff (cat.HasTable n) (by rw [MigrationOp.Performable, h])
  | none => decidable_of_iff (op.Allowed cat) (by rw [MigrationOp.Performable, h])

/-! ## Rows -/

section Rows

variable {V : Type}

def Catalog.columnsOf (cat : Catalog) (t : String) : List ColumnIR :=
  (cat.columns.filter fun c => c.table = t).map Owned.item

/-- The rows of a table rewritten. -/
def Database.mapRows (db : Database V) (t : String) (f : Row V → Row V) : Database V :=
  { db with rows := db.rows.map fun r =>
      if r.table = t then { r with values := f r.values } else r }

def Database.rowsOf (db : Database V) (t : String) : List (StoredRow V) :=
  db.rows.filter fun r => r.table = t

variable (S : Server V)

/-- The statement rewrites the table or looks through it.  The catalog is not
changed here. -/
def MigrationOp.changeRows (db : Database V) : MigrationOp → Option (Database V)
  | .dropTable n => some { db with
      rows := db.rows.filter fun r => r.table ≠ n
      defaults := db.defaults.filter fun d => d.table ≠ n }
  | .addColumn t c none =>
      -- existing rows are filled with NULL
      if c.nullable = false ∧ db.rowsOf t ≠ [] then none
      else some (db.mapRows t fun r => r.set c.name none)
  | .addColumn t c (some d) => (S.value c.typeName d).map fun v =>
      { db.mapRows t fun r => r.set c.name (some v) with
        defaults := db.defaults ++ [⟨t, c.name, .literal d⟩] }
  | .dropColumnDefault t n => some { db with
      defaults := db.defaults.filter fun d => d.table ≠ t ∨ d.column ≠ n }
  | .dropColumn t n => some { db.mapRows t fun r => r.set n none with
      defaults := db.defaults.filter fun d => d.table ≠ t ∨ d.column ≠ n }
  | .alterColumnType t n _ toType =>
      if (db.rowsOf t).all fun r => (r.values n).all fun v => (S.convert toType v).isSome then
        some (db.mapRows t fun r => r.set n ((r n).bind (S.convert toType)))
      else none
  | .alterColumnNullability t n false =>
      if (db.rowsOf t).all fun r => (r.values n).isSome then some db else none
  | _ => some db

def MigrationOp.executeStored (op : MigrationOp) (db : Database V) :
    Option (Database V) :=
  if op.Performable db.catalog then
    (op.changeRows S db).map fun db' => { db' with catalog := db.catalog.run [op] }
  else none

/-- The statement that `compile_op` makes, executed. -/
def MigrationOp.execute (op : MigrationOp) (db : Database V) : Option (Database V) :=
  match op with
  | .addCheck t c =>
      if S.isExpression c.expression then op.stored.executeStored S db
      else S.script t c db
  | _ => op.stored.executeStored S db

/-! ## Statements on rows -/

/-- What an `INSERT` puts into a column. -/
def Database.cell (db : Database V) (t : String) (values : List (String × AddDefaultValue))
    (c : ColumnIR) : Option (Option V) :=
  match values.lookup c.name with
  | some v => (S.value c.typeName v).map some
  | none =>
      match db.defaults.find? fun d => d.table = t ∧ d.column = c.name with
      | some ⟨_, _, .literal d⟩ => (S.value c.typeName d).map some
      | some ⟨_, _, .now⟩ => (S.value c.typeName (.str S.now)).map some
      | none => some none

def Database.newRow (db : Database V) (t : String)
    (values : List (String × AddDefaultValue)) : Option (Row V) :=
  (db.catalog.columnsOf t).foldlM (fun row c => do
    let v ← db.cell S t values c
    if v.isNone ∧ c.nullable = false then none else some (row.set c.name v))
    fun _ => none

/-- The table and the columns of an `INSERT` are there. -/
def Database.Accepts (db : Database V) (t : String)
    (values : List (String × AddDefaultValue)) : Prop :=
  db.catalog.HasTable t ∧ ∀ v ∈ values, db.catalog.HasColumn t v.1

instance (db : Database V) (t : String) (values : List (String × AddDefaultValue)) :
    Decidable (db.Accepts t values) :=
  inferInstanceAs (Decidable (_ ∧ ∀ v ∈ values, _))

def Database.append (db : Database V) (t : String) (row : Row V) : Database V :=
  { db with rows := db.rows ++ [⟨db.nextKey, t, row⟩], nextKey := db.nextKey + 1 }

def Database.insert (t : String) (values : List (String × AddDefaultValue))
    (db : Database V) : Option (Database V) :=
  if db.Accepts t values then (db.newRow S t values).map (db.append t) else none

/-- `INSERT ... ON CONFLICT (id) DO UPDATE SET` the columns of `updates` to their
`EXCLUDED` values; with no columns, `DO NOTHING`. -/
def Database.insertOnConflict [DecidableEq V] (t : String)
    (values : List (String × AddDefaultValue)) (updates : List String)
    (db : Database V) : Option (Database V) :=
  if db.Accepts t values then
    (db.newRow S t values).map fun row =>
      if (db.rowsOf t).any fun r => r.values "id" = row "id" then
        db.mapRows t fun r =>
          if r "id" = row "id" then fun n => if n ∈ updates then row n else r n else r
      else db.append t row
  else none

/-- `DELETE FROM t WHERE column = value` -/
def Database.deleteWhere [DecidableEq V] (t column : String) (v : V)
    (db : Database V) : Option (Database V) :=
  if db.catalog.HasColumn t column then
    some { db with rows := db.rows.filter fun r =>
      ¬(r.table = t ∧ r.values column = some v) }
  else none

end Rows

end Untangled.Schema
