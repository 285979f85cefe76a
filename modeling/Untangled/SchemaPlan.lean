import Untangled.SchemaIr

/-!
# Migration plans

The operations of a plan and which of them lose data or freedom of writing.
-/

namespace Untangled.Schema

/-- A `create_default` of a class definition; a floating-point number is its
shortest text. -/
inductive AddDefaultValue
  | str (value : String)
  | int (value : ℤ)
  | float (value : String)
  | bool (value : Bool)
  deriving DecidableEq

inductive MigrationOp
  | createTable (table : TableIR)
  | dropTable (tableName : String)
  | addColumn (tableName : String) (column : ColumnIR)
      (addDefault : Option AddDefaultValue)
  | dropColumnDefault (tableName columnName : String)
  | dropColumn (tableName columnName : String)
  | alterColumnType (tableName columnName fromType toType : String)
  | alterColumnNullability (tableName columnName : String) (nullable : Bool)
  | addForeignKey (tableName : String) (foreignKey : ForeignKeyIR)
  | dropForeignKey (tableName constraintName : String)
  | createIndex (tableName : String) (index : IndexIR)
  | dropIndex (indexName : String)
  | createSequence (sequence : SequenceIR)
  | dropSequence (sequenceName : String)
  | addCheck (tableName : String) (check : CheckIR)
  | dropCheck (tableName constraintName : String)
  deriving DecidableEq

def MigrationOp.destructive : MigrationOp → Bool
  | .dropTable _ => true
  | .dropColumn _ _ => true
  | .alterColumnType _ _ _ _ => true
  | .alterColumnNullability _ _ nullable => !nullable
  | .dropForeignKey _ _ => true
  | .dropIndex _ => true
  | .dropSequence _ => true
  | _ => false

/-- The operations of a plan, in order. -/
abbrev MigrationPlan := List MigrationOp

def MigrationPlan.destructiveOps (plan : MigrationPlan) : List MigrationOp :=
  plan.filter MigrationOp.destructive

end Untangled.Schema
