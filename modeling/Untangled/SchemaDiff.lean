import Untangled.SchemaPlan
import Untangled.TopologicalOrder

/-!
# The diff of two schemas

`diffSchemas` compares the desired schema with the current one and lists the
operations that lead from one to the other.  Everything that goes is taken down
first, from foreign keys to tables; then everything that is missing is built,
from tables to checks.
-/

namespace Untangled.Schema

/-- Temporary defaults of required columns, by table and column. -/
abbrev ColumnAddDefaults := String → String → Option AddDefaultValue

section Names

variable (desired current : SchemaIR)

def createNames : List String :=
  sortedNames ((namesOf desired.tables).filter (· ∉ namesOf current.tables))

def dropNames : List String :=
  sortedNames ((namesOf current.tables).filter (· ∉ namesOf desired.tables))

def sharedNames : List String :=
  sortedNames ((namesOf desired.tables).filter (· ∈ namesOf current.tables))

end Names

/-- What the tables of `subset` wait for: the tables they reference, or with
`reverse` the tables that reference them. -/
def tableDeps (subset : List String) (schema : SchemaIR) (reverse : Bool)
    (n : String) : List String :=
  let deps := fun m => (((schema.table m).foreignKeys.map
    ForeignKeyIR.referencedTable).filter fun r => r ∈ subset ∧ r ≠ m).dedup
  if reverse then subset.filter fun m => n ∈ deps m else deps n

/-- Foreign keys in a cycle leave no order; then the names are sorted. -/
def topoSort (names : List String) (schema : SchemaIR) (reverse : Bool) :
    List String :=
  let subset := sortedNames (names.filter (· ∈ namesOf schema.tables))
  let ordered := TopologicalOrder.order (tableDeps subset schema reverse) subset
  if ordered.length ≠ subset.length then subset else ordered

/-! ## Phases -/

section Phases

variable {α : Type} [Named α] [DecidableEq α]

/-- The members that are gone and those that change. -/
def removedOrChanged (desired current : List α) : List String :=
  sortedNames ((namesOf current).filter (· ∉ namesOf desired)) ++
    (sortedNames ((namesOf desired).filter (· ∈ namesOf current))).filter
      fun n => byName desired n ≠ byName current n

/-- Take down members of one kind: what is gone or changes on shared tables, and
everything on tables that go. -/
def dropMembers (members : TableIR → List α) (op : String → String → MigrationOp)
    (desired current : SchemaIR) : MigrationPlan :=
  ((sharedNames desired current).flatMap fun n =>
    (removedOrChanged (members (desired.table n))
      (members (current.table n))).map (op n)) ++
  (dropNames desired current).flatMap fun n =>
    (members (current.table n)).map fun m => op n (name m)

/-- Build members of one kind that are missing or change. -/
def addMembers (members : TableIR → List α) (op : String → α → MigrationOp)
    (order : List String) (desired current : SchemaIR) : MigrationPlan :=
  order.flatMap fun n =>
    ((sortedByName (members (desired.table n))).filter fun m =>
      byName (members (current.table n)) (name m) ≠ some m).map (op n)

end Phases

section Plan

variable (desired current : SchemaIR)

def dropForeignKeys : MigrationPlan :=
  dropMembers TableIR.foreignKeys .dropForeignKey desired current

def dropIndexes : MigrationPlan :=
  dropMembers TableIR.indexes (fun _ n => .dropIndex n) desired current

def dropChecks : MigrationPlan :=
  dropMembers TableIR.checks .dropCheck desired current

/-- The changes of one column that stays. -/
def alterColumn (tableName : String) (want has : ColumnIR) : MigrationPlan :=
  (if want.typeName ≠ has.typeName then
    [.alterColumnType tableName want.name has.typeName want.typeName] else []) ++
  (if want.nullable ≠ has.nullable then
    [.alterColumnNullability tableName want.name want.nullable] else [])

def diffColumns (desired current : TableIR) : MigrationPlan :=
  ((sortedNames ((namesOf current.columns).filter
    (· ∉ namesOf desired.columns))).map (.dropColumn desired.name)) ++
  (sortedNames ((namesOf desired.columns).filter
    (· ∈ namesOf current.columns))).flatMap fun n =>
      match byName desired.columns n, byName current.columns n with
      | some want, some has => alterColumn desired.name want has
      | _, _ => []

def changeColumns : MigrationPlan :=
  (sharedNames desired current).flatMap fun n =>
    diffColumns (desired.table n) (current.table n)

def dropTables : MigrationPlan :=
  (topoSort (dropNames desired current) current true).map .dropTable

def dropSequences : MigrationPlan :=
  (sortedNames ((namesOf current.sequences).filter
    (· ∉ namesOf desired.sequences))).map .dropSequence

def tableWithoutFksIndexesOrChecks (t : TableIR) : TableIR :=
  { t with foreignKeys := [], indexes := [], checks := [] }

def createTables : MigrationPlan :=
  (topoSort (createNames desired current) desired false).map fun n =>
    .createTable (tableWithoutFksIndexesOrChecks (desired.table n))

/-- A required column is added with its default, which is dropped again. -/
def addColumnOps (defaults : ColumnAddDefaults) (tableName : String)
    (column : ColumnIR) : MigrationPlan :=
  let addDefault :=
    if column.nullable then none else defaults tableName column.name
  .addColumn tableName column addDefault ::
    if addDefault.isSome then [.dropColumnDefault tableName column.name] else []

def addColumns (defaults : ColumnAddDefaults) : MigrationPlan :=
  (sharedNames desired current).flatMap fun n =>
    ((sortedByName (desired.table n).columns).filter fun c =>
      c.name ∉ namesOf (current.table n).columns).flatMap (addColumnOps defaults n)

def createSequences : MigrationPlan :=
  (sortedNames ((namesOf desired.sequences).filter
    (· ∉ namesOf current.sequences))).filterMap fun n =>
      (byName desired.sequences n).map .createSequence

def createIndexes : MigrationPlan :=
  addMembers TableIR.indexes .createIndex (sortedNames (namesOf desired.tables))
    desired current

def addForeignKeys : MigrationPlan :=
  addMembers TableIR.foreignKeys .addForeignKey
    (topoSort (namesOf desired.tables) desired false) desired current

def addChecks : MigrationPlan :=
  addMembers TableIR.checks .addCheck (sortedNames (namesOf desired.tables))
    desired current

def diffSchemas (desired current : SchemaIR) (defaults : ColumnAddDefaults) :
    MigrationPlan :=
  dropForeignKeys desired current ++ dropIndexes desired current ++
    dropChecks desired current ++ changeColumns desired current ++
    dropTables desired current ++ dropSequences desired current ++
    createTables desired current ++ addColumns desired current defaults ++
    createSequences desired current ++ createIndexes desired current ++
    addForeignKeys desired current ++ addChecks desired current

end Plan

end Untangled.Schema
