import Untangled.SchemaDiffTarget

/-!
# Well-formed schemas

Names are unique where the database keeps them unique, and every index and
foreign key finds the columns and the table it names.  Such a schema describes
its own catalog.
-/

namespace Untangled.Schema

/-- Index names are shared by the whole schema; foreign keys and checks share
the constraint names of their table. -/
structure SchemaIR.WellFormed (s : SchemaIR) : Prop where
  tables : (namesOf s.tables).Nodup
  columns : ∀ t ∈ s.tables, (namesOf t.columns).Nodup
  indexes : (s.tables.flatMap fun t => namesOf t.indexes).Nodup
  sequences : (namesOf s.sequences).Nodup
  constraints : ∀ t ∈ s.tables, (namesOf t.foreignKeys ++ namesOf t.checks).Nodup
  indexColumns : ∀ t ∈ s.tables, ∀ i ∈ t.indexes, ∀ c ∈ i.columns,
    c ∈ namesOf t.columns
  foreignKeyColumns : ∀ t ∈ s.tables, ∀ fk ∈ t.foreignKeys, ∀ c ∈ fk.columns,
    c ∈ namesOf t.columns
  references : ∀ t ∈ s.tables, ∀ fk ∈ t.foreignKeys, ∃ r ∈ s.tables,
    r.name = fk.referencedTable ∧ fk.referencedColumns = r.primaryKey ∧
      ∀ c ∈ fk.referencedColumns, c ∈ namesOf r.columns

namespace SchemaIR

/-- What holds of every table of a schema holds of the table of any name. -/
theorem table_cases {s : SchemaIR} {P : TableIR → Prop} (t : String)
    (hmem : ∀ table ∈ s.tables, P table) (hempty : P ⟨t, [], [], [], [], []⟩) :
    P (s.table t) := by
  by_cases hn : t ∈ namesOf s.tables
  · exact hmem _ (table_mem hn)
  · rwa [table, byName_eq_none.mpr hn]

theorem mem_owned_iff {α : Type} {members : TableIR → List α} {s : SchemaIR}
    (hnames : (namesOf s.tables).Nodup) {r : Owned α} :
    r ∈ s.owned members ↔
      r.table ∈ namesOf s.tables ∧ r.item ∈ members (s.table r.table) := by
  rw [mem_owned]
  constructor
  · rintro ⟨t, ht, hname, hitem⟩
    rw [← hname, table_of_mem hnames ht]
    exact ⟨name_mem_namesOf ht, hitem⟩
  · rintro ⟨hn, hitem⟩
    exact ⟨_, table_mem hn, table_name s r.table, hitem⟩

namespace WellFormed

variable {s : SchemaIR} (hs : s.WellFormed)
include hs

theorem nodup_columns (t : String) : (namesOf (s.table t).columns).Nodup :=
  table_cases t hs.columns List.nodup_nil

theorem nodup_constraints (t : String) :
    (namesOf (s.table t).foreignKeys ++ namesOf (s.table t).checks).Nodup :=
  table_cases t hs.constraints List.nodup_nil

theorem nodup_foreignKeys (t : String) : (namesOf (s.table t).foreignKeys).Nodup :=
  (List.nodup_append.mp (hs.nodup_constraints t)).1

theorem nodup_checks (t : String) : (namesOf (s.table t).checks).Nodup :=
  (List.nodup_append.mp (hs.nodup_constraints t)).2.1

theorem nodup_indexes (t : String) : (namesOf (s.table t).indexes).Nodup :=
  table_cases t (List.nodup_flatMap.mp hs.indexes).1 List.nodup_nil

theorem foreignKey_ne_check {t : String} {fk : ForeignKeyIR} {c : CheckIR}
    (hfk : fk ∈ (s.table t).foreignKeys) (hc : c ∈ (s.table t).checks) :
    fk.name ≠ c.name :=
  (List.nodup_append.mp (hs.nodup_constraints t)).2.2 _ (name_mem_namesOf hfk) _
    (name_mem_namesOf hc)

/-- An index name leads back to its table. -/
theorem indexes_inj {t t' : String} {i i' : IndexIR}
    (hi : i ∈ (s.table t).indexes) (hi' : i' ∈ (s.table t').indexes)
    (hname : i.name = i'.name) : t = t' ∧ i = i' := by
  have hin : ∀ {n : String} {x : IndexIR}, x ∈ (s.table n).indexes →
      n ∈ namesOf s.tables := by
    intro n x hx
    by_contra hn
    rw [table, byName_eq_none.mpr hn] at hx
    cases hx
  have hdisjoint := (List.nodup_flatMap.mp hs.indexes).2
  have hsame : s.table t = s.table t' := by
    by_contra hne
    have hsymm : Std.Symm
        (Function.onFun List.Disjoint fun t : TableIR => namesOf t.indexes) :=
      ⟨fun _ _ hapart => List.Disjoint.symm hapart⟩
    have hpair := hdisjoint.forall (table_mem (hin hi)) (table_mem (hin hi')) hne
    have hthere : name i ∈ namesOf (s.table t').indexes := by
      rw [name_index, hname]
      exact name_mem_namesOf hi'
    exact hpair (name_mem_namesOf hi) hthere
  have ht : t = t' := by
    have hnames := congrArg TableIR.name hsame
    rwa [table_name, table_name] at hnames
  subst ht
  exact ⟨rfl, NamesAgree.of_nodup (hs.nodup_indexes t) i hi i' hi' hname⟩

theorem unambiguous : s.Unambiguous where
  columns t := NamesAgree.of_nodup (hs.nodup_columns t)
  foreignKeys t := NamesAgree.of_nodup (hs.nodup_foreignKeys t)
  indexes t := NamesAgree.of_nodup (hs.nodup_indexes t)
  checks t := NamesAgree.of_nodup (hs.nodup_checks t)
  sequences := NamesAgree.of_nodup hs.sequences

theorem index_column {t n : String} {i : IndexIR} (hi : i ∈ (s.table t).indexes)
    (hn : n ∈ i.columns) : n ∈ namesOf (s.table t).columns := by
  have htable := table_cases (P := fun table => ∀ i ∈ table.indexes, ∀ c ∈ i.columns,
    c ∈ namesOf table.columns) t hs.indexColumns (by simp)
  exact htable i hi n hn

theorem foreignKey_column {t n : String} {fk : ForeignKeyIR}
    (hfk : fk ∈ (s.table t).foreignKeys) (hn : n ∈ fk.columns) :
    n ∈ namesOf (s.table t).columns := by
  have htable := table_cases (P := fun table => ∀ fk ∈ table.foreignKeys,
    ∀ c ∈ fk.columns, c ∈ namesOf table.columns) t hs.foreignKeyColumns (by simp)
  exact htable fk hfk n hn

theorem reference {t : String} {fk : ForeignKeyIR}
    (hfk : fk ∈ (s.table t).foreignKeys) :
    fk.referencedTable ∈ namesOf s.tables ∧ ∀ n ∈ fk.referencedColumns,
      n ∈ namesOf (s.table fk.referencedTable).columns := by
  have htable := table_cases (P := fun table => ∀ fk ∈ table.foreignKeys,
    ∃ r ∈ s.tables, r.name = fk.referencedTable ∧
      fk.referencedColumns = r.primaryKey ∧
        ∀ c ∈ fk.referencedColumns, c ∈ namesOf r.columns) t hs.references (by simp)
  rcases htable fk hfk with ⟨r, hr, hname, _, hcolumns⟩
  rw [← hname]
  refine ⟨name_mem_namesOf hr, ?_⟩
  rwa [table_of_mem hs.tables hr]

theorem referencesExist : s.ReferencesExist :=
  fun _ _ hfk => (hs.reference hfk).1

/-! ## The catalog of a well-formed schema -/

theorem mem_columns {r : Owned ColumnIR} :
    r ∈ s.catalog.columns ↔
      r.table ∈ namesOf s.tables ∧ r.item ∈ (s.table r.table).columns :=
  mem_owned_iff hs.tables

theorem mem_foreignKeys {r : Owned ForeignKeyIR} :
    r ∈ s.catalog.foreignKeys ↔
      r.table ∈ namesOf s.tables ∧ r.item ∈ (s.table r.table).foreignKeys :=
  mem_owned_iff hs.tables

theorem mem_indexes {r : Owned IndexIR} :
    r ∈ s.catalog.indexes ↔
      r.table ∈ namesOf s.tables ∧ r.item ∈ (s.table r.table).indexes :=
  mem_owned_iff hs.tables

theorem mem_checks {r : Owned CheckIR} :
    r ∈ s.catalog.checks ↔
      r.table ∈ namesOf s.tables ∧ r.item ∈ (s.table r.table).checks :=
  mem_owned_iff hs.tables

end WellFormed

theorem mem_catalog_tables {s : SchemaIR} {e : TableEntry} :
    e ∈ s.catalog.tables ↔ ∃ t ∈ s.tables, e = ⟨t.name, t.primaryKey⟩ := by
  simp [catalog, eq_comm]

theorem catalog_hasTable {s : SchemaIR} {n : String} :
    s.catalog.HasTable n ↔ n ∈ namesOf s.tables := by
  simp [Catalog.HasTable, catalog, mem_namesOf]

theorem catalog_hasSequence {s : SchemaIR} {n : String} :
    s.catalog.HasSequence n ↔ n ∈ namesOf s.sequences := by
  simp [Catalog.HasSequence, catalog, mem_namesOf]

/-- A member that the schema lists belongs to one of its tables. -/
theorem mem_namesOf_tables {α : Type} {members : TableIR → List α} {s : SchemaIR}
    {t : String} {m : α} (hempty : ∀ n, members ⟨n, [], [], [], [], []⟩ = [])
    (hm : m ∈ members (s.table t)) : t ∈ namesOf s.tables := by
  by_contra hn
  rw [table, byName_eq_none.mpr hn, Option.getD_none, hempty] at hm
  cases hm

theorem WellFormed.catalog_hasColumn {s : SchemaIR} (hs : s.WellFormed) {t n : String} :
    s.catalog.HasColumn t n ↔ n ∈ namesOf (s.table t).columns := by
  constructor
  · rintro ⟨c, hc, rfl, rfl⟩
    exact name_mem_namesOf (hs.mem_columns.mp hc).2
  · intro hn
    rcases mem_namesOf.mp hn with ⟨c, hc, rfl⟩
    exact ⟨⟨t, c⟩, hs.mem_columns.mpr
      ⟨mem_namesOf_tables (fun _ => rfl) hc, hc⟩, rfl, rfl⟩

theorem WellFormed.rooted {s : SchemaIR} (hs : s.WellFormed) : s.catalog.Rooted where
  columns r hr := catalog_hasTable.mpr (hs.mem_columns.mp hr).1
  foreignKeys r hr := catalog_hasTable.mpr (hs.mem_foreignKeys.mp hr).1
  indexes r hr := catalog_hasTable.mpr (hs.mem_indexes.mp hr).1
  checks r hr := catalog_hasTable.mpr (hs.mem_checks.mp hr).1
  indexNames := by
    intro r hr r' hr' hname
    have hsame := hs.indexes_inj (hs.mem_indexes.mp hr).2 (hs.mem_indexes.mp hr').2 hname
    cases r
    cases r'
    simp_all

theorem lists_owned {α : Type} {members : TableIR → List α} {desired s : SchemaIR}
    (hs : s.WellFormed) (hempty : ∀ n, members ⟨n, [], [], [], [], []⟩ = []) :
    Lists desired s members (s.owned members) where
  sound _ _ hm := (mem_owned_iff hs.tables).mpr ⟨mem_namesOf_tables hempty hm, hm⟩
  complete _ hr _ := ((mem_owned_iff hs.tables).mp hr).2

theorem WellFormed.describes {s : SchemaIR} (hs : s.WellFormed) (desired : SchemaIR) :
    Describes desired s s.catalog where
  tables _ := catalog_hasTable
  columns := lists_owned hs fun _ => rfl
  foreignKeys := lists_owned hs fun _ => rfl
  indexes := lists_owned hs fun _ => rfl
  checks := lists_owned hs fun _ => rfl
  sequences _ _ := catalog_hasSequence
  unambiguous := hs.unambiguous

end SchemaIR

end Untangled.Schema
