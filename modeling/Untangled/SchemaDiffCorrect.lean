import Untangled.SchemaDiffExecution

/-!
# Plans are executable and reach the target

Operations that are allowed keep the keys of a catalog distinct.  So the catalog
that a plan leads to has every member of the desired schema, nothing else, and
nothing twice.
-/

namespace Untangled.Schema

/-- No two rows of a catalog have one key. -/
structure Catalog.Keyed (cat : Catalog) : Prop where
  tables : (cat.tables.map TableEntry.name).Nodup
  columns : (cat.columns.map fun c => (c.table, c.item.name)).Nodup
  foreignKeys : (cat.foreignKeys.map fun fk => (fk.table, fk.item.name)).Nodup
  indexes : (cat.indexes.map fun i => i.item.name).Nodup
  checks : (cat.checks.map fun c => (c.table, c.item.name)).Nodup
  sequences : (cat.sequences.map SequenceIR.name).Nodup
  columnTables : ∀ c ∈ cat.columns, cat.HasTable c.table

section Step

variable {cat : Catalog} {op : MigrationOp} (hcat : cat.Keyed) (hop : op.Allowed cat)
include hcat hop

theorem keyed_tables : ((cat.run [op]).tables.map TableEntry.name).Nodup := by
  rw [Catalog.run_tables, Editing.run_cons, Editing.run_nil]
  apply Editing.nodup_step (fun _ => rfl) hcat.tables
  · cases op <;> simp [tableEdits, Editing.plain]
  · intro a ha r hr hname
    cases op <;> simp [tableEdits, Editing.plain] at ha
    subst ha
    exact hop ⟨r, hr, hname⟩

theorem keyed_columns
    (hcolumns : ∀ t, op = .createTable t → (namesOf t.columns).Nodup) :
    ((cat.run [op]).columns.map fun c => (c.table, c.item.name)).Nodup := by
  rw [Catalog.run_columns, Editing.run_cons, Editing.run_nil]
  apply Editing.nodup_step _ hcat.columns
  · cases op with
    | createTable t =>
        have hnames : (t.columns.map fun c => (t.name, c.name)).Nodup := by
          have hnodup := (hcolumns t rfl).map (Prod.mk_right_injective t.name)
          simpa [namesOf, Function.comp_def] using hnodup
        simpa [columnEdits, Function.comp_def] using hnames
    | _ => simp [columnEdits]
  · intro a ha r hr hname
    simp only [Prod.mk.injEq] at hname
    cases op with
    | createTable t =>
        rcases List.mem_map.mp ha with ⟨c, _, rfl⟩
        have hthere := hcat.columnTables r hr
        rw [hname.1] at hthere
        exact hop hthere
    | addColumn t c addDefault =>
        have hrow : a = ⟨t, c⟩ := by simpa [columnEdits] using ha
        subst hrow
        exact hop.2 ⟨r, hr, hname⟩
    | _ => simp [columnEdits] at ha
  · intro r
    have hkey := columnEdits_key op r
    rw [hkey.1, hkey.2]

theorem keyed_foreignKeys :
    ((cat.run [op]).foreignKeys.map fun fk => (fk.table, fk.item.name)).Nodup := by
  rw [Catalog.run_foreignKeys, Editing.run_cons, Editing.run_nil]
  apply Editing.nodup_step (fun _ => rfl) hcat.foreignKeys
  · cases op <;> simp [foreignKeyEdits, Editing.plain]
  · intro a ha r hr hname
    cases op <;> simp [foreignKeyEdits, Editing.plain] at ha
    subst ha
    exact hop.2.1 ⟨r, hr, Prod.mk.inj hname⟩

theorem keyed_indexes : ((cat.run [op]).indexes.map fun i => i.item.name).Nodup := by
  rw [Catalog.run_indexes, Editing.run_cons, Editing.run_nil]
  apply Editing.nodup_step (fun _ => rfl) hcat.indexes
  · cases op <;> simp [indexEdits, Editing.plain]
  · intro a ha r hr hname
    cases op <;> simp [indexEdits, Editing.plain] at ha
    subst ha
    exact hop.2.1 ⟨r, hr, hname⟩

theorem keyed_checks :
    ((cat.run [op]).checks.map fun c => (c.table, c.item.name)).Nodup := by
  rw [Catalog.run_checks, Editing.run_cons, Editing.run_nil]
  apply Editing.nodup_step (fun _ => rfl) hcat.checks
  · cases op <;> simp [checkEdits, Editing.plain]
  · intro a ha r hr hname
    cases op <;> simp [checkEdits, Editing.plain] at ha
    subst ha
    exact hop.2.2 ⟨r, hr, Prod.mk.inj hname⟩

theorem keyed_sequences : ((cat.run [op]).sequences.map SequenceIR.name).Nodup := by
  rw [Catalog.run_sequences, Editing.run_cons, Editing.run_nil]
  apply Editing.nodup_step (fun _ => rfl) hcat.sequences
  · cases op <;> simp [sequenceEdits, Editing.plain]
  · intro a ha r hr hname
    cases op <;> simp [sequenceEdits, Editing.plain] at ha
    subst ha
    exact hop ⟨r, hr, hname⟩

theorem keyed_columnTables :
    ∀ c ∈ (cat.run [op]).columns, (cat.run [op]).HasTable c.table := by
  intro c hc
  -- a table other than the one an operation drops is there afterwards
  have hstays : ∀ n, cat.HasTable n → op ≠ .dropTable n →
      (cat.run [op]).HasTable n := by
    rintro n ⟨e, he, rfl⟩ hne
    refine ⟨e, ?_, rfl⟩
    rw [Catalog.run_tables, Editing.run_cons, Editing.run_nil, Editing.mem_step]
    refine Or.inl ⟨e, he, ?_, rfl⟩
    cases op <;> simp [tableEdits, Editing.plain]
    rintro rfl
    exact hne rfl
  rw [Catalog.run_columns, Editing.run_cons, Editing.run_nil, Editing.mem_step] at hc
  rcases hc with ⟨old, hold, hkept, rfl⟩ | hadds
  · rw [(columnEdits_key op old).1]
    apply hstays _ (hcat.columnTables old hold)
    rintro rfl
    simp [columnEdits] at hkept
  · cases op with
    | createTable t =>
        rcases List.mem_map.mp hadds with ⟨c, _, rfl⟩
        refine ⟨⟨t.name, t.primaryKey⟩, ?_, rfl⟩
        rw [Catalog.run_tables, Editing.run_cons, Editing.run_nil, Editing.mem_step]
        exact Or.inr (by simp [tableEdits, Editing.plain])
    | addColumn t x addDefault =>
        have hrow : c = ⟨t, x⟩ := by simpa [columnEdits] using hadds
        subst hrow
        exact hstays t hop.1 (by simp)
    | _ => simp [columnEdits] at hadds

theorem Catalog.Keyed.step
    (hcolumns : ∀ t, op = .createTable t → (namesOf t.columns).Nodup) :
    (cat.run [op]).Keyed where
  tables := keyed_tables hcat hop
  columns := keyed_columns hcat hop hcolumns
  foreignKeys := keyed_foreignKeys hcat hop
  indexes := keyed_indexes hcat hop
  checks := keyed_checks hcat hop
  sequences := keyed_sequences hcat hop
  columnTables := keyed_columnTables hcat hop

end Step

theorem Catalog.Keyed.execute {ops : MigrationPlan} {cat final : Catalog}
    (hcat : cat.Keyed) (hrun : execute ops cat = some final)
    (hcolumns : ∀ t, .createTable t ∈ ops → (namesOf t.columns).Nodup) :
    final.Keyed := by
  induction ops generalizing cat with
  | nil =>
      have hsame : cat = final := by simpa [Schema.execute] using hrun
      rwa [← hsame]
  | cons op ops ih =>
      simp only [Schema.execute, Option.ite_none_right_eq_some] at hrun
      have hstep : (cat.run [op]).Keyed :=
        hcat.step hrun.1 fun t ht => hcolumns t (by rw [ht]; exact .head _)
      exact ih hstep hrun.2 fun t ht => hcolumns t (.tail _ ht)

/-! ## The catalog of a well-formed schema -/

section Owned

variable {α : Type} [Named α] {members : TableIR → List α} {s : SchemaIR}

/-- Members with distinct names in tables with distinct names. -/
theorem nodup_owned (htables : (namesOf s.tables).Nodup)
    (hmembers : ∀ t ∈ s.tables, (namesOf (members t)).Nodup) :
    ((s.owned members).map fun r => (r.table, name r.item)).Nodup := by
  rw [SchemaIR.owned, List.map_flatMap]
  refine List.nodup_flatMap.mpr ⟨?_, ?_⟩
  · intro t ht
    have hnodup := (hmembers t ht).map (Prod.mk_right_injective t.name)
    simpa [namesOf, Function.comp_def] using hnodup
  · apply (List.Nodup.of_map _ htables).pairwise_of_forall_ne
    intro t ht t' ht' hne key hkey hkey'
    simp only [List.map_map, List.mem_map, Function.comp_apply] at hkey hkey'
    rcases hkey with ⟨m, _, rfl⟩
    rcases hkey' with ⟨m', _, heq⟩
    have hname : t.name = t'.name := (Prod.mk.inj heq).1.symm
    exact hne (NamesAgree.of_nodup htables t ht t' ht' hname)

end Owned

theorem SchemaIR.WellFormed.keyed {s : SchemaIR} (hs : s.WellFormed) :
    s.catalog.Keyed where
  tables := by
    have hnames : s.catalog.tables.map TableEntry.name = namesOf s.tables :=
      List.map_map
    rw [hnames]
    exact hs.tables
  columns := nodup_owned hs.tables hs.columns
  foreignKeys := nodup_owned hs.tables fun t ht =>
    (List.nodup_append.mp (hs.constraints t ht)).1
  indexes := by
    have hnames : s.catalog.indexes.map (fun i => i.item.name) =
        s.tables.flatMap fun t => namesOf t.indexes := by
      simp only [SchemaIR.catalog, SchemaIR.owned, namesOf, List.map_flatMap,
        List.map_map]
      rfl
    rw [hnames]
    exact hs.indexes
  checks := nodup_owned hs.tables fun t ht =>
    (List.nodup_append.mp (hs.constraints t ht)).2.1
  sequences := hs.sequences
  columnTables c hc := SchemaIR.catalog_hasTable.mpr (hs.mem_columns.mp hc).1

/-! ## The end of a plan -/

/-- One schema up to the order of its members; sequences count by name. -/
structure Catalog.SameUpToOrder (a b : Catalog) : Prop where
  tables : a.tables.Perm b.tables
  columns : a.columns.Perm b.columns
  foreignKeys : a.foreignKeys.Perm b.foreignKeys
  indexes : a.indexes.Perm b.indexes
  checks : a.checks.Perm b.checks
  sequences : (namesOf a.sequences).Perm (namesOf b.sequences)

theorem perm_of_keyed {ρ κ : Type} {key key' : ρ → κ} {rows rows' : List ρ}
    (hrows : (rows.map key).Nodup) (hrows' : (rows'.map key').Nodup)
    (hsame : ∀ r, r ∈ rows ↔ r ∈ rows') : rows.Perm rows' :=
  (List.perm_ext_iff_of_nodup (List.Nodup.of_map _ hrows)
    (List.Nodup.of_map _ hrows')).mpr hsame

theorem createTable_columns {desired current : SchemaIR} {defaults : ColumnAddDefaults}
    (hdesired : desired.WellFormed) {t : TableIR}
    (ht : .createTable t ∈ diffSchemas desired current defaults) :
    (namesOf t.columns).Nodup := by
  rcases createTable_mem_buildup.mp (Upto.mem_buildup ht rfl) with ⟨n, _, rfl⟩
  exact hdesired.nodup_columns n

theorem diffSchemas_reaches_target (desired current : SchemaIR)
    (defaults : ColumnAddDefaults)
    (hdesired : desired.WellFormed) (hcurrent : current.WellFormed)
    (hprimaryKeys : ∀ t ∈ desired.tables, ∀ t' ∈ current.tables,
      t.name = t'.name → t.primaryKey = t'.primaryKey) :
    ∃ final, execute (diffSchemas desired current defaults) current.catalog =
        some final ∧
      final.SameUpToOrder desired.catalog := by
  have hrun := execute_diffSchemas defaults hdesired hcurrent
  have hkeyed := hcurrent.keyed.execute hrun fun t ht => createTable_columns hdesired ht
  have hwant := hdesired.keyed
  have hdescribes := hcurrent.describes desired
  refine ⟨_, hrun, ?_, ?_, ?_, ?_, ?_, ?_⟩
  · apply perm_of_keyed hkeyed.tables hwant.tables
    intro e
    rw [tableEntry_reached, dropTable_mem_teardown, SchemaIR.mem_catalog_tables,
      SchemaIR.mem_catalog_tables]
    constructor
    · rintro (⟨⟨t, ht, rfl⟩, hkept⟩ | ⟨n, hn, rfl⟩)
      · have hthere : t.name ∈ namesOf desired.tables := by
          by_contra hgone
          exact hkept (mem_dropNames.mpr ⟨name_mem_namesOf ht, hgone⟩)
        rcases mem_namesOf.mp hthere with ⟨t', ht', hname⟩
        have hkey := hprimaryKeys t' ht' t ht hname
        exact ⟨t', ht', by rw [hkey, ← hname]; rfl⟩
      · refine ⟨desired.table n, SchemaIR.table_mem (mem_createNames.mp hn).1, ?_⟩
        rw [SchemaIR.table_name]
    · rintro ⟨t, ht, rfl⟩
      by_cases hold : t.name ∈ namesOf current.tables
      · rcases mem_namesOf.mp hold with ⟨t', ht', hname⟩
        have hkey := hprimaryKeys t ht t' ht' hname.symm
        refine Or.inl ⟨⟨t', ht', by rw [hkey, ← hname]; rfl⟩, ?_⟩
        exact fun hdrop => (mem_dropNames.mp hdrop).2 (name_mem_namesOf ht)
      · refine Or.inr ⟨t.name, mem_createNames.mpr ⟨name_mem_namesOf ht, hold⟩, ?_⟩
        rw [SchemaIR.table_of_mem hdesired.tables ht]
  · apply perm_of_keyed hkeyed.columns hwant.columns
    intro r
    rw [columns_reached hcurrent.rooted hdescribes hdesired.unambiguous,
      hdesired.mem_columns]
  · apply perm_of_keyed hkeyed.foreignKeys hwant.foreignKeys
    intro r
    rw [foreignKeys_reached hcurrent.rooted hdescribes hdesired.unambiguous
      hdesired.referencesExist, hdesired.mem_foreignKeys]
  · apply perm_of_keyed hkeyed.indexes hwant.indexes
    intro r
    rw [indexes_reached hcurrent.rooted hdescribes hdesired.unambiguous,
      hdesired.mem_indexes]
  · apply perm_of_keyed hkeyed.checks hwant.checks
    intro r
    rw [checks_reached hcurrent.rooted hdescribes hdesired.unambiguous,
      hdesired.mem_checks]
  · apply (List.perm_ext_iff_of_nodup hkeyed.sequences hwant.sequences).mpr
    intro n
    have hreached := @sequences_reached _ _ _ defaults hdescribes hdesired.unambiguous n
    rw [SchemaIR.catalog_hasSequence, or_iff_left (fun hleft => hleft.2 hleft.1),
      ← SchemaIR.catalog_hasSequence] at hreached
    have hnames : ∀ cat : Catalog,
        n ∈ cat.sequences.map SequenceIR.name ↔ cat.HasSequence n := by
      intro cat
      simp [Catalog.HasSequence]
    rw [hnames, hnames]
    exact hreached

/-- Two tables that reference each other. -/
def cyclicSchema : SchemaIR where
  tables := [
    ⟨"account", [⟨"id", "uuid", false⟩, ⟨"owner_id", "uuid", true⟩], ["id"],
      [⟨"account_owner_id_fkey", ["owner_id"], "person", ["id"]⟩],
      [⟨"account_owner_id_key", ["owner_id"], true⟩], []⟩,
    ⟨"person", [⟨"id", "uuid", false⟩, ⟨"account_id", "uuid", false⟩], ["id"],
      [⟨"person_account_id_fkey", ["account_id"], "account", ["id"]⟩], [],
      [⟨"person_rule", "account_id <> id"⟩]⟩]
  sequences := [⟨"person_seq", 1, "person", "id", "P", false⟩]

/-- One of the tables is missing and another one holds its index name. -/
def outdatedSchema : SchemaIR where
  tables := [
    ⟨"account", [⟨"id", "text", false⟩, ⟨"legacy", "text", true⟩], ["id"], [], [], []⟩,
    ⟨"visit", [⟨"id", "uuid", false⟩, ⟨"account_id", "text", true⟩], ["id"],
      [⟨"visit_account_id_fkey", ["account_id"], "account", ["id"]⟩],
      [⟨"account_owner_id_key", ["account_id"], false⟩], []⟩]
  sequences := [⟨"visit_seq", 1, "visit", "id", "V", false⟩]

theorem cyclicSchema_wellFormed : cyclicSchema.WellFormed := by
  constructor <;> decide

theorem outdatedSchema_wellFormed : outdatedSchema.WellFormed := by
  constructor <;> decide

theorem outdated_reaches_cyclic :
    ∃ final, execute (diffSchemas cyclicSchema outdatedSchema fun _ _ => none)
        outdatedSchema.catalog = some final ∧
      final.SameUpToOrder cyclicSchema.catalog :=
  diffSchemas_reaches_target cyclicSchema outdatedSchema (fun _ _ => none)
    cyclicSchema_wellFormed outdatedSchema_wellFormed (by decide)

end Untangled.Schema
