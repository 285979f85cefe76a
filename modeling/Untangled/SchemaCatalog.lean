import Untangled.RowEdits
import Untangled.SchemaPlan

/-!
# The abstract catalog

A schema as a database keeps it: the tables, and beside them the columns,
constraints and indexes with the table they belong to.  `Allowed` says when an
operation of a plan may be performed; `execute` performs a plan and stops at the
first operation that may not.
-/

namespace Untangled.Schema

/-- A member together with the table it belongs to. -/
structure Owned (α : Type) where
  table : String
  item : α
  deriving DecidableEq

structure TableEntry where
  name : String
  primaryKey : List String
  deriving DecidableEq

structure Catalog where
  tables : List TableEntry
  columns : List (Owned ColumnIR)
  foreignKeys : List (Owned ForeignKeyIR)
  indexes : List (Owned IndexIR)
  checks : List (Owned CheckIR)
  sequences : List SequenceIR
  deriving DecidableEq

/-- The members of one kind of a schema, with their tables. -/
def SchemaIR.owned {α : Type} (members : TableIR → List α) (s : SchemaIR) :
    List (Owned α) :=
  s.tables.flatMap fun t => (members t).map (Owned.mk t.name)

def SchemaIR.catalog (s : SchemaIR) : Catalog where
  tables := s.tables.map fun t => ⟨t.name, t.primaryKey⟩
  columns := s.owned TableIR.columns
  foreignKeys := s.owned TableIR.foreignKeys
  indexes := s.owned TableIR.indexes
  checks := s.owned TableIR.checks
  sequences := s.sequences

theorem SchemaIR.mem_owned {α : Type} {members : TableIR → List α} {s : SchemaIR}
    {r : Owned α} :
    r ∈ s.owned members ↔ ∃ t ∈ s.tables, t.name = r.table ∧ r.item ∈ members t := by
  simp only [owned, List.mem_flatMap, List.mem_map]
  constructor
  · rintro ⟨t, ht, item, hitem, rfl⟩
    exact ⟨t, ht, rfl, hitem⟩
  · rintro ⟨t, ht, hname, hitem⟩
    exact ⟨t, ht, r.item, hitem, by rw [hname]⟩

/-! ## What an operation changes -/

def tableEdits : Editing MigrationOp TableEntry :=
  .plain
    (fun op r => match op with
      | .dropTable n => r.name = n
      | _ => false)
    (fun op => match op with
      | .createTable t => [⟨t.name, t.primaryKey⟩]
      | _ => [])

/-- Only the columns and the primary key come with a new table. -/
def columnEdits : Editing MigrationOp (Owned ColumnIR) where
  drops
    | .dropTable n, r => r.table = n
    | .dropColumn t n, r => r.table = t && r.item.name = n
    | _, _ => false
  alters
    | .alterColumnType t n _ toType, r =>
        if r.table = t ∧ r.item.name = n then
          ⟨t, { r.item with typeName := toType }⟩
        else r
    | .alterColumnNullability t n nullable, r =>
        if r.table = t ∧ r.item.name = n then
          ⟨t, { r.item with nullable := nullable }⟩
        else r
    | _, r => r
  adds
    | .createTable t => t.columns.map (Owned.mk t.name)
    | .addColumn t c _ => [⟨t, c⟩]
    | _ => []

/-- A dropped table takes the foreign keys that reference it along. -/
def foreignKeyEdits : Editing MigrationOp (Owned ForeignKeyIR) :=
  .plain
    (fun op r => match op with
      | .dropTable n => r.table = n || r.item.referencedTable = n
      | .dropForeignKey t n => r.table = t && r.item.name = n
      | _ => false)
    (fun op => match op with
      | .addForeignKey t fk => [⟨t, fk⟩]
      | _ => [])

def indexEdits : Editing MigrationOp (Owned IndexIR) :=
  .plain
    (fun op r => match op with
      | .dropTable n => r.table = n
      | .dropIndex n => r.item.name = n
      | _ => false)
    (fun op => match op with
      | .createIndex t i => [⟨t, i⟩]
      | _ => [])

def checkEdits : Editing MigrationOp (Owned CheckIR) :=
  .plain
    (fun op r => match op with
      | .dropTable n => r.table = n
      | .dropCheck t n => r.table = t && r.item.name = n
      | _ => false)
    (fun op => match op with
      | .addCheck t c => [⟨t, c⟩]
      | _ => [])

def sequenceEdits : Editing MigrationOp SequenceIR :=
  .plain
    (fun op r => match op with
      | .dropSequence n => r.name = n
      | _ => false)
    (fun op => match op with
      | .createSequence s => [s]
      | _ => [])

/-- The catalog after the operations, whether or not they were allowed. -/
def Catalog.run (cat : Catalog) (ops : MigrationPlan) : Catalog where
  tables := tableEdits.run ops cat.tables
  columns := columnEdits.run ops cat.columns
  foreignKeys := foreignKeyEdits.run ops cat.foreignKeys
  indexes := indexEdits.run ops cat.indexes
  checks := checkEdits.run ops cat.checks
  sequences := sequenceEdits.run ops cat.sequences

section Run

variable (cat : Catalog) (ops : MigrationPlan)

theorem Catalog.run_tables : (cat.run ops).tables = tableEdits.run ops cat.tables := rfl

theorem Catalog.run_columns :
    (cat.run ops).columns = columnEdits.run ops cat.columns := rfl

theorem Catalog.run_foreignKeys :
    (cat.run ops).foreignKeys = foreignKeyEdits.run ops cat.foreignKeys := rfl

theorem Catalog.run_indexes :
    (cat.run ops).indexes = indexEdits.run ops cat.indexes := rfl

theorem Catalog.run_checks :
    (cat.run ops).checks = checkEdits.run ops cat.checks := rfl

theorem Catalog.run_sequences :
    (cat.run ops).sequences = sequenceEdits.run ops cat.sequences := rfl

end Run

theorem Catalog.run_append (cat : Catalog) (ops ops' : MigrationPlan) :
    cat.run (ops ++ ops') = (cat.run ops).run ops' := by
  simp [run, Editing.run_append]

/-! ## When an operation is allowed -/

namespace Catalog

variable (cat : Catalog)

def HasTable (n : String) : Prop :=
  ∃ t ∈ cat.tables, t.name = n

def HasColumn (t n : String) : Prop :=
  ∃ c ∈ cat.columns, c.table = t ∧ c.item.name = n

def HasForeignKey (t n : String) : Prop :=
  ∃ fk ∈ cat.foreignKeys, fk.table = t ∧ fk.item.name = n

def HasCheck (t n : String) : Prop :=
  ∃ c ∈ cat.checks, c.table = t ∧ c.item.name = n

def HasIndex (n : String) : Prop :=
  ∃ i ∈ cat.indexes, i.item.name = n

def HasSequence (n : String) : Prop :=
  ∃ s ∈ cat.sequences, s.name = n

/-- An index or a foreign key uses the column. -/
def UsesColumn (t n : String) : Prop :=
  (∃ i ∈ cat.indexes, i.table = t ∧ n ∈ i.item.columns) ∨
    ∃ fk ∈ cat.foreignKeys, (fk.table = t ∧ n ∈ fk.item.columns) ∨
      (fk.item.referencedTable = t ∧ n ∈ fk.item.referencedColumns)

/-- A foreign key of another table references the table. -/
def ReferencedByOther (n : String) : Prop :=
  ∃ fk ∈ cat.foreignKeys, fk.item.referencedTable = n ∧ fk.table ≠ n

instance (n : String) : Decidable (cat.HasTable n) :=
  inferInstanceAs (Decidable (∃ t ∈ cat.tables, t.name = n))

instance (t n : String) : Decidable (cat.HasColumn t n) :=
  inferInstanceAs (Decidable (∃ c ∈ cat.columns, c.table = t ∧ c.item.name = n))

instance (t n : String) : Decidable (cat.HasForeignKey t n) :=
  inferInstanceAs
    (Decidable (∃ fk ∈ cat.foreignKeys, fk.table = t ∧ fk.item.name = n))

instance (t n : String) : Decidable (cat.HasCheck t n) :=
  inferInstanceAs (Decidable (∃ c ∈ cat.checks, c.table = t ∧ c.item.name = n))

instance (n : String) : Decidable (cat.HasIndex n) :=
  inferInstanceAs (Decidable (∃ i ∈ cat.indexes, i.item.name = n))

instance (n : String) : Decidable (cat.HasSequence n) :=
  inferInstanceAs (Decidable (∃ s ∈ cat.sequences, s.name = n))

instance (t n : String) : Decidable (cat.UsesColumn t n) :=
  inferInstanceAs (Decidable (_ ∨ _))

instance (n : String) : Decidable (cat.ReferencedByOther n) :=
  inferInstanceAs (Decidable (∃ fk ∈ cat.foreignKeys,
    fk.item.referencedTable = n ∧ fk.table ≠ n))

end Catalog

/-- A created object is absent, a dropped or altered one is there, and what an
operation relies on exists. -/
def MigrationOp.Allowed (cat : Catalog) : MigrationOp → Prop
  | .createTable t => ¬cat.HasTable t.name
  | .dropTable n => cat.HasTable n ∧ ¬cat.ReferencedByOther n
  | .addColumn t c _ => cat.HasTable t ∧ ¬cat.HasColumn t c.name
  | .dropColumnDefault t n => cat.HasColumn t n
  | .dropColumn t n => cat.HasColumn t n ∧ ¬cat.UsesColumn t n
  | .alterColumnType t n _ _ => cat.HasColumn t n
  | .alterColumnNullability t n _ => cat.HasColumn t n
  | .addForeignKey t fk =>
      cat.HasTable t ∧ ¬cat.HasForeignKey t fk.name ∧ ¬cat.HasCheck t fk.name ∧
        (∀ c ∈ fk.columns, cat.HasColumn t c) ∧ cat.HasTable fk.referencedTable ∧
          ∀ c ∈ fk.referencedColumns, cat.HasColumn fk.referencedTable c
  | .dropForeignKey t n => cat.HasForeignKey t n
  | .createIndex t i =>
      cat.HasTable t ∧ ¬cat.HasIndex i.name ∧ ∀ c ∈ i.columns, cat.HasColumn t c
  | .dropIndex n => cat.HasIndex n
  | .createSequence s => ¬cat.HasSequence s.name
  | .dropSequence n => cat.HasSequence n
  | .addCheck t c =>
      cat.HasTable t ∧ ¬cat.HasForeignKey t c.name ∧ ¬cat.HasCheck t c.name
  | .dropCheck t n => cat.HasCheck t n

instance (cat : Catalog) (op : MigrationOp) : Decidable (op.Allowed cat) :=
  match op with
  | .createTable t => inferInstanceAs (Decidable (¬cat.HasTable t.name))
  | .dropTable _ => inferInstanceAs (Decidable (_ ∧ _))
  | .addColumn _ _ _ => inferInstanceAs (Decidable (_ ∧ _))
  | .dropColumnDefault t n => inferInstanceAs (Decidable (cat.HasColumn t n))
  | .dropColumn _ _ => inferInstanceAs (Decidable (_ ∧ _))
  | .alterColumnType t n _ _ => inferInstanceAs (Decidable (cat.HasColumn t n))
  | .alterColumnNullability t n _ => inferInstanceAs (Decidable (cat.HasColumn t n))
  | .addForeignKey _ _ => inferInstanceAs (Decidable (_ ∧ _))
  | .dropForeignKey t n => inferInstanceAs (Decidable (cat.HasForeignKey t n))
  | .createIndex _ _ => inferInstanceAs (Decidable (_ ∧ _))
  | .dropIndex n => inferInstanceAs (Decidable (cat.HasIndex n))
  | .createSequence s => inferInstanceAs (Decidable (¬cat.HasSequence s.name))
  | .dropSequence n => inferInstanceAs (Decidable (cat.HasSequence n))
  | .addCheck _ _ => inferInstanceAs (Decidable (_ ∧ _))
  | .dropCheck t n => inferInstanceAs (Decidable (cat.HasCheck t n))

def execute : MigrationPlan → Catalog → Option Catalog
  | [], cat => some cat
  | op :: ops, cat =>
      if op.Allowed cat then execute ops (cat.run [op]) else none

/-- A plan runs through when each operation is allowed after those before it. -/
theorem execute_of_allowed {ops : MigrationPlan} {cat : Catalog}
    (hallowed : ∀ pre op post, ops = pre ++ op :: post → op.Allowed (cat.run pre)) :
    execute ops cat = some (cat.run ops) := by
  induction ops generalizing cat with
  | nil => rfl
  | cons op ops ih =>
      have hop : op.Allowed cat := hallowed [] op ops rfl
      have hrest : execute ops (cat.run [op]) = some ((cat.run [op]).run ops) := by
        apply ih
        intro pre op' post hsplit
        have hnext := hallowed (op :: pre) op' post (by rw [hsplit]; rfl)
        rwa [← List.singleton_append, Catalog.run_append] at hnext
      simp only [execute, if_pos hop, hrest]
      rfl

end Untangled.Schema
