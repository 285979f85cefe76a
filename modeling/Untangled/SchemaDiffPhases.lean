import Untangled.SchemaDiff

/-!
# What the phases of a plan contain

Each phase of `diffSchemas` as a set of operations, and why no operation occurs
twice in it.
-/

namespace Untangled.Schema

section Names

variable {desired current : SchemaIR} {n : String}

theorem mem_createNames :
    n ∈ createNames desired current ↔
      n ∈ namesOf desired.tables ∧ n ∉ namesOf current.tables := by
  simp only [createNames, mem_sortedNames, List.mem_filter, decide_eq_true_eq]

theorem mem_dropNames :
    n ∈ dropNames desired current ↔
      n ∈ namesOf current.tables ∧ n ∉ namesOf desired.tables := by
  simp only [dropNames, mem_sortedNames, List.mem_filter, decide_eq_true_eq]

theorem mem_sharedNames :
    n ∈ sharedNames desired current ↔
      n ∈ namesOf desired.tables ∧ n ∈ namesOf current.tables := by
  simp only [sharedNames, mem_sortedNames, List.mem_filter, decide_eq_true_eq]

end Names

/-! ## The order of tables -/

theorem nodup_tableDeps {subset : List String} (hsubset : subset.Nodup)
    (schema : SchemaIR) (reverse : Bool) (n : String) :
    (tableDeps subset schema reverse n).Nodup := by
  cases reverse with
  | true => exact hsubset.filter _
  | false => exact List.nodup_dedup _

theorem topoSort_perm (names : List String) (schema : SchemaIR) (reverse : Bool) :
    (topoSort names schema reverse).Perm
      (sortedNames (names.filter (· ∈ namesOf schema.tables))) := by
  have hsubset := nodup_sortedNames (names.filter (· ∈ namesOf schema.tables))
  unfold topoSort
  dsimp only
  split
  · exact List.Perm.refl _
  · rename_i hlength
    exact TopologicalOrder.order_perm _ hsubset
      (fun n _ => nodup_tableDeps hsubset schema reverse n) (not_not.mp hlength)

theorem mem_topoSort {names : List String} {schema : SchemaIR} {reverse : Bool}
    {n : String} :
    n ∈ topoSort names schema reverse ↔
      n ∈ names ∧ n ∈ namesOf schema.tables := by
  rw [(topoSort_perm names schema reverse).mem_iff]
  simp only [mem_sortedNames, List.mem_filter, decide_eq_true_eq]

theorem nodup_topoSort (names : List String) (schema : SchemaIR) (reverse : Bool) :
    (topoSort names schema reverse).Nodup :=
  (topoSort_perm names schema reverse).nodup_iff.mpr (nodup_sortedNames _)

/-! ## Members -/

section Members

variable {α : Type} [Named α] [DecidableEq α] {members : TableIR → List α}
  {desired current : SchemaIR}

theorem mem_removedOrChanged {want has : List α} {n : String} :
    n ∈ removedOrChanged want has ↔
      n ∈ namesOf has ∧ byName want n ≠ byName has n := by
  simp only [removedOrChanged, List.mem_append, mem_sortedNames, List.mem_filter,
    decide_eq_true_eq]
  constructor
  · rintro (⟨hhas, hwant⟩ | ⟨⟨_, hhas⟩, hne⟩)
    · refine ⟨hhas, ?_⟩
      rcases exists_byName hhas with ⟨item, hitem⟩
      rw [byName_eq_none.mpr hwant, hitem]
      simp
    · exact ⟨hhas, hne⟩
  · rintro ⟨hhas, hne⟩
    by_cases hwant : n ∈ namesOf want
    · exact Or.inr ⟨⟨hwant, hhas⟩, hne⟩
    · exact Or.inl ⟨hhas, hwant⟩

theorem nodup_removedOrChanged (want has : List α) :
    (removedOrChanged want has).Nodup := by
  apply List.Nodup.append (nodup_sortedNames _) ((nodup_sortedNames _).filter _)
  intro n hgone hchanged
  simp only [mem_sortedNames, List.mem_filter, decide_eq_true_eq] at hgone hchanged
  exact hgone.2 hchanged.1.1

theorem mem_dropMembers {make : String → String → MigrationOp} {op : MigrationOp} :
    op ∈ dropMembers members make desired current ↔
      (∃ t ∈ sharedNames desired current,
        ∃ n ∈ removedOrChanged (members (desired.table t)) (members (current.table t)),
          op = make t n) ∨
      ∃ t ∈ dropNames desired current, ∃ m ∈ members (current.table t),
        op = make t (name m) := by
  simp only [dropMembers, List.mem_append, List.mem_flatMap, List.mem_map,
    eq_comm (b := op)]

theorem mem_addMembers {make : String → α → MigrationOp} {order : List String}
    {op : MigrationOp} :
    op ∈ addMembers members make order desired current ↔
      ∃ t ∈ order, ∃ m ∈ members (desired.table t),
        byName (members (current.table t)) (name m) ≠ some m ∧ op = make t m := by
  simp only [addMembers, List.mem_flatMap, List.mem_map, List.mem_filter,
    mem_sortedByName, decide_eq_true_eq, and_assoc, eq_comm (b := op)]

end Members

/-! ## Tables, columns and sequences -/

section Phases

variable {desired current : SchemaIR} {op : MigrationOp}

theorem mem_dropTables :
    op ∈ dropTables desired current ↔
      ∃ n ∈ dropNames desired current, op = .dropTable n := by
  simp only [dropTables, List.mem_map, mem_topoSort, mem_dropNames, eq_comm (b := op)]
  constructor
  · rintro ⟨n, ⟨hn, _⟩, rfl⟩
    exact ⟨n, hn, rfl⟩
  · rintro ⟨n, hn, rfl⟩
    exact ⟨n, ⟨hn, hn.1⟩, rfl⟩

theorem mem_createTables :
    op ∈ createTables desired current ↔
      ∃ n ∈ createNames desired current,
        op = .createTable (tableWithoutFksIndexesOrChecks (desired.table n)) := by
  simp only [createTables, List.mem_map, mem_topoSort, mem_createNames, eq_comm (b := op)]
  constructor
  · rintro ⟨n, ⟨hn, _⟩, rfl⟩
    exact ⟨n, hn, rfl⟩
  · rintro ⟨n, hn, rfl⟩
    exact ⟨n, ⟨hn, hn.1⟩, rfl⟩

theorem mem_dropSequences :
    op ∈ dropSequences desired current ↔
      ∃ n ∈ namesOf current.sequences, n ∉ namesOf desired.sequences ∧
        op = .dropSequence n := by
  simp only [dropSequences, List.mem_map, mem_sortedNames, List.mem_filter,
    decide_eq_true_eq, and_assoc, eq_comm (b := op)]

theorem mem_createSequences :
    op ∈ createSequences desired current ↔
      ∃ n ∉ namesOf current.sequences, ∃ s, byName desired.sequences n = some s ∧
        op = .createSequence s := by
  simp only [createSequences, List.mem_filterMap, mem_sortedNames, List.mem_filter,
    decide_eq_true_eq, Option.map_eq_some_iff]
  constructor
  · rintro ⟨n, ⟨_, hn⟩, s, hs, rfl⟩
    exact ⟨n, hn, s, hs, rfl⟩
  · rintro ⟨n, hn, s, hs, rfl⟩
    refine ⟨n, ⟨?_, hn⟩, s, hs, rfl⟩
    rcases byName_some hs with ⟨hmem, rfl⟩
    exact name_mem_namesOf hmem

theorem mem_alterColumn {t : String} {want has : ColumnIR} :
    op ∈ alterColumn t want has ↔
      (want.typeName ≠ has.typeName ∧
        op = .alterColumnType t want.name has.typeName want.typeName) ∨
      (want.nullable ≠ has.nullable ∧
        op = .alterColumnNullability t want.name want.nullable) := by
  unfold alterColumn
  by_cases htype : want.typeName = has.typeName <;>
    by_cases hnull : want.nullable = has.nullable <;> simp [htype, hnull]

theorem mem_changeColumns :
    op ∈ changeColumns desired current ↔
      ∃ t ∈ sharedNames desired current,
        (∃ n ∈ namesOf (current.table t).columns,
          n ∉ namesOf (desired.table t).columns ∧ op = .dropColumn t n) ∨
        ∃ n want has, byName (desired.table t).columns n = some want ∧
          byName (current.table t).columns n = some has ∧
          op ∈ alterColumn t want has := by
  simp only [changeColumns, diffColumns, List.mem_flatMap, List.mem_append,
    List.mem_map, SchemaIR.table_name, mem_sortedNames, List.mem_filter,
    decide_eq_true_eq]
  constructor
  · rintro ⟨t, ht, ⟨n, ⟨hn, hgone⟩, rfl⟩ | ⟨n, ⟨hwant, hhas⟩, hop⟩⟩
    · exact ⟨t, ht, Or.inl ⟨n, hn, hgone, rfl⟩⟩
    · rcases exists_byName hwant with ⟨want, hwant⟩
      rcases exists_byName hhas with ⟨has, hhas⟩
      simp only [hwant, hhas] at hop
      exact ⟨t, ht, Or.inr ⟨n, want, has, hwant, hhas, hop⟩⟩
  · rintro ⟨t, ht, ⟨n, hn, hgone, rfl⟩ | ⟨n, want, has, hwant, hhas, hop⟩⟩
    · exact ⟨t, ht, Or.inl ⟨n, ⟨hn, hgone⟩, rfl⟩⟩
    · refine ⟨t, ht, Or.inr ⟨n, ⟨?_, ?_⟩, ?_⟩⟩
      · rcases byName_some hwant with ⟨hmem, rfl⟩
        exact name_mem_namesOf hmem
      · rcases byName_some hhas with ⟨hmem, rfl⟩
        exact name_mem_namesOf hmem
      · simpa only [hwant, hhas] using hop

theorem mem_addColumns {defaults : ColumnAddDefaults} :
    op ∈ addColumns desired current defaults ↔
      ∃ t ∈ sharedNames desired current, ∃ c ∈ (desired.table t).columns,
        c.name ∉ namesOf (current.table t).columns ∧
          op ∈ addColumnOps defaults t c := by
  simp only [addColumns, List.mem_flatMap, List.mem_filter, mem_sortedByName,
    decide_eq_true_eq, and_assoc]

end Phases

/-! ## The two halves of a plan -/

/-- The first half: what goes or changes. -/
def teardown (desired current : SchemaIR) : MigrationPlan :=
  dropForeignKeys desired current ++ dropIndexes desired current ++
    dropChecks desired current ++ changeColumns desired current ++
    dropTables desired current ++ dropSequences desired current

/-- The second half: what is missing. -/
def buildup (desired current : SchemaIR) (defaults : ColumnAddDefaults) :
    MigrationPlan :=
  createTables desired current ++ addColumns desired current defaults ++
    createSequences desired current ++ createIndexes desired current ++
    addForeignKeys desired current ++ addChecks desired current

theorem diffSchemas_eq (desired current : SchemaIR) (defaults : ColumnAddDefaults) :
    diffSchemas desired current defaults =
      teardown desired current ++ buildup desired current defaults := by
  simp [diffSchemas, teardown, buildup]

section Halves

variable {desired current : SchemaIR} {defaults : ColumnAddDefaults}
  {t n : String}

theorem mem_teardown {op : MigrationOp} :
    op ∈ teardown desired current ↔
      op ∈ dropForeignKeys desired current ∨ op ∈ dropIndexes desired current ∨
        op ∈ dropChecks desired current ∨ op ∈ changeColumns desired current ∨
        op ∈ dropTables desired current ∨ op ∈ dropSequences desired current := by
  simp [teardown]

theorem mem_buildup {op : MigrationOp} :
    op ∈ buildup desired current defaults ↔
      op ∈ createTables desired current ∨ op ∈ addColumns desired current defaults ∨
        op ∈ createSequences desired current ∨ op ∈ createIndexes desired current ∨
        op ∈ addForeignKeys desired current ∨ op ∈ addChecks desired current := by
  simp [buildup]

theorem dropForeignKey_mem_teardown :
    .dropForeignKey t n ∈ teardown desired current ↔
      (t ∈ sharedNames desired current ∧ n ∈ removedOrChanged
        (desired.table t).foreignKeys (current.table t).foreignKeys) ∨
      (t ∈ dropNames desired current ∧
        n ∈ namesOf (current.table t).foreignKeys) := by
  simp [mem_teardown, dropForeignKeys, dropIndexes, dropChecks, mem_dropMembers,
    mem_changeColumns, mem_alterColumn, mem_dropTables, mem_dropSequences,
    mem_namesOf, eq_comm]

theorem dropIndex_mem_teardown :
    .dropIndex n ∈ teardown desired current ↔
      (∃ t ∈ sharedNames desired current, n ∈ removedOrChanged
        (desired.table t).indexes (current.table t).indexes) ∨
      ∃ t ∈ dropNames desired current, n ∈ namesOf (current.table t).indexes := by
  simp [mem_teardown, dropForeignKeys, dropIndexes, dropChecks, mem_dropMembers,
    mem_changeColumns, mem_alterColumn, mem_dropTables, mem_dropSequences,
    mem_namesOf, eq_comm]

theorem dropCheck_mem_teardown :
    .dropCheck t n ∈ teardown desired current ↔
      (t ∈ sharedNames desired current ∧ n ∈ removedOrChanged
        (desired.table t).checks (current.table t).checks) ∨
      (t ∈ dropNames desired current ∧ n ∈ namesOf (current.table t).checks) := by
  simp [mem_teardown, dropForeignKeys, dropIndexes, dropChecks, mem_dropMembers,
    mem_changeColumns, mem_alterColumn, mem_dropTables, mem_dropSequences,
    mem_namesOf, eq_comm]

theorem dropTable_mem_teardown :
    .dropTable n ∈ teardown desired current ↔ n ∈ dropNames desired current := by
  simp [mem_teardown, dropForeignKeys, dropIndexes, dropChecks, mem_dropMembers,
    mem_changeColumns, mem_alterColumn, mem_dropTables, mem_dropSequences]

theorem dropColumn_mem_teardown :
    .dropColumn t n ∈ teardown desired current ↔
      t ∈ sharedNames desired current ∧ n ∈ namesOf (current.table t).columns ∧
        n ∉ namesOf (desired.table t).columns := by
  simp [mem_teardown, dropForeignKeys, dropIndexes, dropChecks, mem_dropMembers,
    mem_changeColumns, mem_alterColumn, mem_dropTables, mem_dropSequences]

theorem alterColumnType_mem_teardown {fromType toType : String} :
    .alterColumnType t n fromType toType ∈ teardown desired current ↔
      t ∈ sharedNames desired current ∧ ∃ m want has,
        byName (desired.table t).columns m = some want ∧
        byName (current.table t).columns m = some has ∧
        want.typeName ≠ has.typeName ∧ n = want.name ∧ fromType = has.typeName ∧
        toType = want.typeName := by
  simp [mem_teardown, dropForeignKeys, dropIndexes, dropChecks, mem_dropMembers,
    mem_changeColumns, mem_alterColumn, mem_dropTables, mem_dropSequences]

theorem alterColumnNullability_mem_teardown {nullable : Bool} :
    .alterColumnNullability t n nullable ∈ teardown desired current ↔
      t ∈ sharedNames desired current ∧ ∃ m want has,
        byName (desired.table t).columns m = some want ∧
        byName (current.table t).columns m = some has ∧
        want.nullable ≠ has.nullable ∧ n = want.name ∧
        nullable = want.nullable := by
  simp [mem_teardown, dropForeignKeys, dropIndexes, dropChecks, mem_dropMembers,
    mem_changeColumns, mem_alterColumn, mem_dropTables, mem_dropSequences]

theorem dropSequence_mem_teardown :
    .dropSequence n ∈ teardown desired current ↔
      n ∈ namesOf current.sequences ∧ n ∉ namesOf desired.sequences := by
  simp [mem_teardown, dropForeignKeys, dropIndexes, dropChecks, mem_dropMembers,
    mem_changeColumns, mem_alterColumn, mem_dropTables, mem_dropSequences]

theorem createTable_mem_buildup {table : TableIR} :
    .createTable table ∈ buildup desired current defaults ↔
      ∃ n ∈ createNames desired current,
        table = tableWithoutFksIndexesOrChecks (desired.table n) := by
  simp [mem_buildup, mem_createTables, mem_addColumns, addColumnOps,
    mem_createSequences, createIndexes, addForeignKeys, addChecks, mem_addMembers]

theorem addColumn_mem_buildup {c : ColumnIR} {addDefault : Option AddDefaultValue} :
    .addColumn t c addDefault ∈ buildup desired current defaults ↔
      t ∈ sharedNames desired current ∧ c ∈ (desired.table t).columns ∧
        c.name ∉ namesOf (current.table t).columns ∧
        addDefault = if c.nullable then none else defaults t c.name := by
  simp [mem_buildup, mem_createTables, mem_addColumns, addColumnOps,
    mem_createSequences, createIndexes, addForeignKeys, addChecks, mem_addMembers]

theorem createSequence_mem_buildup {s : SequenceIR} :
    .createSequence s ∈ buildup desired current defaults ↔
      byName desired.sequences s.name = some s ∧
        s.name ∉ namesOf current.sequences := by
  have hlookup : (∃ n ∉ namesOf current.sequences,
      byName desired.sequences n = some s) ↔
      byName desired.sequences s.name = some s ∧
        s.name ∉ namesOf current.sequences := by
    constructor
    · rintro ⟨n, hn, hs⟩
      have hname : s.name = n := (byName_some hs).2
      exact ⟨hname ▸ hs, hname ▸ hn⟩
    · rintro ⟨hs, hn⟩
      exact ⟨s.name, hn, hs⟩
  rw [← hlookup]
  simp [mem_buildup, mem_createTables, mem_addColumns, addColumnOps,
    mem_createSequences, createIndexes, addForeignKeys, addChecks, mem_addMembers]

theorem createIndex_mem_buildup {i : IndexIR} :
    .createIndex t i ∈ buildup desired current defaults ↔
      t ∈ namesOf desired.tables ∧ i ∈ (desired.table t).indexes ∧
        byName (current.table t).indexes i.name ≠ some i := by
  simp [mem_buildup, mem_createTables, mem_addColumns, addColumnOps,
    mem_createSequences, createIndexes, addForeignKeys, addChecks, mem_addMembers]

theorem addForeignKey_mem_buildup {fk : ForeignKeyIR} :
    .addForeignKey t fk ∈ buildup desired current defaults ↔
      t ∈ namesOf desired.tables ∧ fk ∈ (desired.table t).foreignKeys ∧
        byName (current.table t).foreignKeys fk.name ≠ some fk := by
  simp [mem_buildup, mem_createTables, mem_addColumns, addColumnOps,
    mem_createSequences, createIndexes, addForeignKeys, addChecks, mem_addMembers,
    mem_topoSort]

theorem addCheck_mem_buildup {c : CheckIR} :
    .addCheck t c ∈ buildup desired current defaults ↔
      t ∈ namesOf desired.tables ∧ c ∈ (desired.table t).checks ∧
        byName (current.table t).checks c.name ≠ some c := by
  simp [mem_buildup, mem_createTables, mem_addColumns, addColumnOps,
    mem_createSequences, createIndexes, addForeignKeys, addChecks, mem_addMembers]

end Halves

/-- The operation removes or rewrites something. -/
def MigrationOp.takesDown : MigrationOp → Bool
  | .dropTable _ => true
  | .dropColumn _ _ => true
  | .alterColumnType _ _ _ _ => true
  | .alterColumnNullability _ _ _ => true
  | .dropForeignKey _ _ => true
  | .dropIndex _ => true
  | .dropSequence _ => true
  | .dropCheck _ _ => true
  | _ => false

theorem takesDown_of_mem_teardown {desired current : SchemaIR} {op : MigrationOp}
    (hop : op ∈ teardown desired current) : op.takesDown = true := by
  simp only [mem_teardown, dropForeignKeys, dropIndexes, dropChecks,
    mem_dropMembers, mem_changeColumns, mem_alterColumn, mem_dropTables,
    mem_dropSequences] at hop
  rcases hop with (⟨_, _, _, _, rfl⟩ | ⟨_, _, _, _, rfl⟩) |
    (⟨_, _, _, _, rfl⟩ | ⟨_, _, _, _, rfl⟩) |
    (⟨_, _, _, _, rfl⟩ | ⟨_, _, _, _, rfl⟩) |
    ⟨_, _, ⟨_, _, _, rfl⟩ | ⟨_, _, _, _, _, ⟨_, rfl⟩ | ⟨_, rfl⟩⟩⟩ |
    ⟨_, _, rfl⟩ | ⟨_, _, _, rfl⟩
  all_goals rfl

theorem takesDown_of_mem_buildup {desired current : SchemaIR}
    {defaults : ColumnAddDefaults} {op : MigrationOp}
    (hop : op ∈ buildup desired current defaults) : op.takesDown = false := by
  simp only [mem_buildup, mem_createTables, mem_addColumns, addColumnOps,
    mem_createSequences, createIndexes, addForeignKeys, addChecks,
    mem_addMembers, List.mem_cons] at hop
  rcases hop with ⟨_, _, rfl⟩ | ⟨_, _, _, _, _, rfl | hdefault⟩ | ⟨_, _, _, _, rfl⟩ |
    ⟨_, _, _, _, _, rfl⟩ | ⟨_, _, _, _, _, rfl⟩ | ⟨_, _, _, _, _, rfl⟩
  case inr.inl.inr =>
    rw [List.mem_ite_nil_right, List.mem_singleton] at hdefault
    rw [hdefault.2]
    rfl
  all_goals rfl

end Untangled.Schema
