import Untangled.SchemaCatalog
import Untangled.SchemaDiffPhases

/-!
# A plan leads to the desired schema

Whatever catalog a plan is performed on, as long as the current schema describes
it, the catalog ends with the tables, columns, constraints, indexes and sequences
of the desired schema.
-/

namespace Untangled.Schema

/-- Members of one table that share a name are one member. -/
structure SchemaIR.Unambiguous (s : SchemaIR) : Prop where
  columns : ∀ t, NamesAgree (s.table t).columns
  foreignKeys : ∀ t, NamesAgree (s.table t).foreignKeys
  indexes : ∀ t, NamesAgree (s.table t).indexes
  checks : ∀ t, NamesAgree (s.table t).checks
  sequences : NamesAgree s.sequences

def SchemaIR.ReferencesExist (s : SchemaIR) : Prop :=
  ∀ t, ∀ fk ∈ (s.table t).foreignKeys, fk.referencedTable ∈ namesOf s.tables

/-- Everything in a catalog belongs to a table of it, and index names are shared
by the whole catalog. -/
structure Catalog.Rooted (cat : Catalog) : Prop where
  columns : ∀ r ∈ cat.columns, cat.HasTable r.table
  foreignKeys : ∀ r ∈ cat.foreignKeys, cat.HasTable r.table
  indexes : ∀ r ∈ cat.indexes, cat.HasTable r.table
  checks : ∀ r ∈ cat.checks, cat.HasTable r.table
  indexNames : ∀ r ∈ cat.indexes, ∀ r' ∈ cat.indexes,
    r.item.name = r'.item.name → r = r'

/-- `current` lists the rows of a catalog: nothing else, and everything of the
tables that are desired. -/
structure Lists {α : Type} (desired current : SchemaIR)
    (members : TableIR → List α) (rows : List (Owned α)) : Prop where
  sound : ∀ t, ∀ m ∈ members (current.table t), ⟨t, m⟩ ∈ rows
  complete : ∀ r ∈ rows, r.table ∈ namesOf desired.tables →
    r.item ∈ members (current.table r.table)

/-- What is read of a catalog: the names of its tables, and of the tables that
are also desired every member. -/
structure Describes (desired current : SchemaIR) (cat : Catalog) : Prop where
  tables : ∀ n, cat.HasTable n ↔ n ∈ namesOf current.tables
  columns : Lists desired current TableIR.columns cat.columns
  foreignKeys : Lists desired current TableIR.foreignKeys cat.foreignKeys
  indexes : Lists desired current TableIR.indexes cat.indexes
  checks : Lists desired current TableIR.checks cat.checks
  sequences : ∀ n ∈ namesOf desired.sequences,
    cat.HasSequence n ↔ n ∈ namesOf current.sequences
  unambiguous : current.Unambiguous

/-! ## The halves of a plan, row by row -/

/-- What goes or changes adds nothing; what is missing takes nothing away. -/
structure Separates {ρ : Type} (E : Editing MigrationOp ρ) : Prop where
  adds : ∀ op : MigrationOp, op.takesDown = true → E.adds op = []
  drops : ∀ op : MigrationOp, op.takesDown = false → ∀ r, E.drops op r = false
  alters : ∀ op : MigrationOp, op.takesDown = false → ∀ r, E.alters op r = r

theorem separates_tables : Separates tableEdits where
  adds := by intro op hop; cases op <;> simp_all [MigrationOp.takesDown, tableEdits, Editing.plain]
  drops := by intro op hop r; cases op <;> simp_all [MigrationOp.takesDown, tableEdits, Editing.plain]
  alters := by intro op hop r; cases op <;> rfl

theorem separates_columns : Separates columnEdits where
  adds := by intro op hop; cases op <;> simp_all [MigrationOp.takesDown, columnEdits]
  drops := by intro op hop r; cases op <;> simp_all [MigrationOp.takesDown, columnEdits]
  alters := by intro op hop r; cases op <;> simp_all [MigrationOp.takesDown, columnEdits]

theorem separates_foreignKeys : Separates foreignKeyEdits where
  adds := by
    intro op hop
    cases op <;> simp_all [MigrationOp.takesDown, foreignKeyEdits, Editing.plain]
  drops := by
    intro op hop r
    cases op <;> simp_all [MigrationOp.takesDown, foreignKeyEdits, Editing.plain]
  alters := by intro op hop r; cases op <;> rfl

theorem separates_indexes : Separates indexEdits where
  adds := by
    intro op hop
    cases op <;> simp_all [MigrationOp.takesDown, indexEdits, Editing.plain]
  drops := by
    intro op hop r
    cases op <;> simp_all [MigrationOp.takesDown, indexEdits, Editing.plain]
  alters := by intro op hop r; cases op <;> rfl

theorem separates_checks : Separates checkEdits where
  adds := by
    intro op hop
    cases op <;> simp_all [MigrationOp.takesDown, checkEdits, Editing.plain]
  drops := by
    intro op hop r
    cases op <;> simp_all [MigrationOp.takesDown, checkEdits, Editing.plain]
  alters := by intro op hop r; cases op <;> rfl

theorem separates_sequences : Separates sequenceEdits where
  adds := by
    intro op hop
    cases op <;> simp_all [MigrationOp.takesDown, sequenceEdits, Editing.plain]
  drops := by
    intro op hop r
    cases op <;> simp_all [MigrationOp.takesDown, sequenceEdits, Editing.plain]
  alters := by intro op hop r; cases op <;> rfl

section Plain

variable {ρ : Type} {E : Editing MigrationOp ρ} {rows : List ρ} {r : ρ}
  {desired current : SchemaIR} {defaults : ColumnAddDefaults}

/-- A row is there in the end if it was never dropped or is newly added. -/
theorem mem_run_diffSchemas (hE : Separates E)
    (hplain : ∀ op r, E.alters op r = r) :
    r ∈ E.run (diffSchemas desired current defaults) rows ↔
      (r ∈ rows ∧ ∀ op ∈ teardown desired current, E.drops op r = false) ∨
        ∃ op ∈ buildup desired current defaults, r ∈ E.adds op := by
  have hkeeps : ∀ op ∈ buildup desired current defaults, E.drops op r = false :=
    fun op hop => hE.drops op (takesDown_of_mem_buildup hop) r
  rw [diffSchemas_eq, Editing.run_append]
  constructor
  · intro hr
    rcases Editing.mem_run_origin (fun op _ => hplain op) hr with ⟨hold, _⟩ | hnew
    · rcases Editing.mem_run_origin (fun op _ => hplain op) hold with
        hkept | ⟨op, hop, hadds⟩
      · exact Or.inl hkept
      · rw [hE.adds op (takesDown_of_mem_teardown hop)] at hadds
        cases hadds
    · exact Or.inr hnew
  · rintro (⟨hr, hkept⟩ | ⟨op, hop, hadds⟩)
    · have hleft := Editing.mem_run_kept (fun op _ => hplain op) hr hkept
      exact Editing.mem_run_kept (fun op _ => hplain op) hleft hkeeps
    · exact Editing.mem_run_added (fun op _ => hplain op) hop hadds hkeeps

end Plain

section Members

variable {α : Type} [Named α] [DecidableEq α] {members : TableIR → List α}
  {E : Editing MigrationOp (Owned α)} {rows : List (Owned α)}
  {desired current : SchemaIR} {defaults : ColumnAddDefaults} {ops : MigrationPlan}

/-- The members that stay: those that both schemas have. -/
theorem kept_iff
    (hrows : Lists desired current members rows)
    (hroot : ∀ r ∈ rows, r.table ∈ namesOf current.tables)
    (hhas : ∀ t, NamesAgree (members (current.table t)))
    (hwant : ∀ t, NamesAgree (members (desired.table t)))
    (hdrops : ∀ r ∈ rows, (∃ op ∈ ops, E.drops op r = true) ↔
      r.table ∉ namesOf desired.tables ∨
        name r.item ∈ removedOrChanged (members (desired.table r.table))
          (members (current.table r.table)))
    (r : Owned α) :
    (r ∈ rows ∧ ∀ op ∈ ops, E.drops op r = false) ↔
      r.table ∈ namesOf desired.tables ∧ r.table ∈ namesOf current.tables ∧
        r.item ∈ members (current.table r.table) ∧
        r.item ∈ members (desired.table r.table) := by
  constructor
  · rintro ⟨hr, hkept⟩
    have hno : ¬∃ op ∈ ops, E.drops op r = true := by
      rintro ⟨op, hop, hdrop⟩
      rw [hkept op hop] at hdrop
      cases hdrop
    rw [hdrops r hr, not_or, not_not] at hno
    have hcurrent := hrows.complete r hr hno.1
    have hsame : byName (members (desired.table r.table)) (name r.item) =
        byName (members (current.table r.table)) (name r.item) := by
      by_contra hne
      exact hno.2 (mem_removedOrChanged.mpr ⟨name_mem_namesOf hcurrent, hne⟩)
    rw [(hhas r.table).byName hcurrent] at hsame
    exact ⟨hno.1, hroot r hr, hcurrent, (byName_some hsame).1⟩
  · rintro ⟨hdesired, _, hcurrent, hitem⟩
    have hr : r ∈ rows := hrows.sound r.table r.item hcurrent
    refine ⟨hr, fun op hop => ?_⟩
    by_contra hdrop
    rcases (hdrops r hr).mp ⟨op, hop, by simpa using hdrop⟩ with hgone | hchanged
    · exact hgone hdesired
    · apply (mem_removedOrChanged.mp hchanged).2
      rw [(hhas r.table).byName hcurrent, (hwant r.table).byName hitem]

/-- The members of one kind in the end are the desired ones. -/
theorem members_reached (hE : Separates E) (hplain : ∀ op r, E.alters op r = r)
    (hrows : Lists desired current members rows)
    (hroot : ∀ r ∈ rows, r.table ∈ namesOf current.tables)
    (hhas : ∀ t, NamesAgree (members (current.table t)))
    (hwant : ∀ t, NamesAgree (members (desired.table t)))
    (hdrops : ∀ r ∈ rows, (∃ op ∈ teardown desired current, E.drops op r = true) ↔
      r.table ∉ namesOf desired.tables ∨
        name r.item ∈ removedOrChanged (members (desired.table r.table))
          (members (current.table r.table)))
    (hadds : ∀ r, (∃ op ∈ buildup desired current defaults, r ∈ E.adds op) ↔
      r.table ∈ namesOf desired.tables ∧ r.item ∈ members (desired.table r.table) ∧
        byName (members (current.table r.table)) (name r.item) ≠ some r.item)
    (r : Owned α) :
    r ∈ E.run (diffSchemas desired current defaults) rows ↔
      r.table ∈ namesOf desired.tables ∧ r.item ∈ members (desired.table r.table) := by
  rw [mem_run_diffSchemas hE hplain, hadds,
    kept_iff hrows hroot hhas hwant hdrops]
  constructor
  · rintro (⟨hdesired, _, _, hitem⟩ | ⟨hdesired, hitem, _⟩)
    · exact ⟨hdesired, hitem⟩
    · exact ⟨hdesired, hitem⟩
  · rintro ⟨hdesired, hitem⟩
    by_cases hlookup :
        byName (members (current.table r.table)) (name r.item) = some r.item
    · have hcurrent := (byName_some hlookup).1
      have hr : r ∈ rows := hrows.sound r.table r.item hcurrent
      exact Or.inl ⟨hdesired, hroot r hr, hcurrent, hitem⟩
    · exact Or.inr ⟨hdesired, hitem, hlookup⟩

end Members

/-! ## Kind by kind -/

section Kinds

variable {desired current : SchemaIR} {cat : Catalog}
  {defaults : ColumnAddDefaults}

theorem foreignKey_dropped_iff {ops : MigrationPlan} {r : Owned ForeignKeyIR} :
    (∃ op ∈ ops, foreignKeyEdits.drops op r = true) ↔
      .dropTable r.table ∈ ops ∨ .dropTable r.item.referencedTable ∈ ops ∨
        .dropForeignKey r.table r.item.name ∈ ops := by
  constructor
  · rintro ⟨op, hop, hdrop⟩
    cases op <;> simp [foreignKeyEdits, Editing.plain] at hdrop
    · rcases hdrop with rfl | rfl
      · exact Or.inl hop
      · exact Or.inr (Or.inl hop)
    · rcases hdrop with ⟨rfl, rfl⟩
      exact Or.inr (Or.inr hop)
  · rintro (hop | hop | hop)
    · exact ⟨_, hop, by simp [foreignKeyEdits, Editing.plain]⟩
    · exact ⟨_, hop, by simp [foreignKeyEdits, Editing.plain]⟩
    · exact ⟨_, hop, by simp [foreignKeyEdits, Editing.plain]⟩

theorem foreignKeys_reached (hcat : cat.Rooted) (hdescribes : Describes desired current cat)
    (hdesired : desired.Unambiguous) (hreferences : desired.ReferencesExist)
    (r : Owned ForeignKeyIR) :
    r ∈ (cat.run (diffSchemas desired current defaults)).foreignKeys ↔
      r.table ∈ namesOf desired.tables ∧
        r.item ∈ (desired.table r.table).foreignKeys := by
  have hroot : ∀ r ∈ cat.foreignKeys, r.table ∈ namesOf current.tables :=
    fun r hr => (hdescribes.tables _).mp (hcat.foreignKeys r hr)
  rw [Catalog.run_foreignKeys]
  refine members_reached separates_foreignKeys (fun _ _ => rfl)
    hdescribes.foreignKeys hroot hdescribes.unambiguous.foreignKeys
    hdesired.foreignKeys ?_ ?_ r
  · intro r hr
    have hcurrent := hroot r hr
    rw [foreignKey_dropped_iff, dropTable_mem_teardown, dropTable_mem_teardown,
      dropForeignKey_mem_teardown, mem_dropNames, mem_dropNames, mem_sharedNames]
    constructor
    · rintro (⟨_, hgone⟩ | ⟨_, hgone⟩ | ⟨_, hchanged⟩ | ⟨⟨_, hgone⟩, _⟩)
      · exact Or.inl hgone
      · -- a desired foreign key references a desired table
        by_cases htable : r.table ∈ namesOf desired.tables
        · have hitem := hdescribes.foreignKeys.complete r hr htable
          refine Or.inr (mem_removedOrChanged.mpr ⟨name_mem_namesOf hitem, ?_⟩)
          rw [(hdescribes.unambiguous.foreignKeys r.table).byName hitem]
          intro hwant
          exact hgone (hreferences _ _ (byName_some hwant).1)
        · exact Or.inl htable
      · exact Or.inr hchanged
      · exact Or.inl hgone
    · rintro (hgone | hchanged)
      · exact Or.inl ⟨hcurrent, hgone⟩
      · by_cases htable : r.table ∈ namesOf desired.tables
        · exact Or.inr (Or.inr (Or.inl ⟨⟨htable, hcurrent⟩, hchanged⟩))
        · exact Or.inl ⟨hcurrent, htable⟩
  · intro r
    rw [name_foreignKey, ← @addForeignKey_mem_buildup _ _ defaults]
    constructor
    · rintro ⟨op, hop, hadds⟩
      cases op <;> simp [foreignKeyEdits, Editing.plain] at hadds
      subst hadds
      exact hop
    · intro hop
      exact ⟨_, hop, by simp [foreignKeyEdits, Editing.plain]⟩

theorem index_dropped_iff {ops : MigrationPlan} {r : Owned IndexIR} :
    (∃ op ∈ ops, indexEdits.drops op r = true) ↔
      .dropTable r.table ∈ ops ∨ .dropIndex r.item.name ∈ ops := by
  constructor
  · rintro ⟨op, hop, hdrop⟩
    cases op <;> simp [indexEdits, Editing.plain] at hdrop
    · exact Or.inl (hdrop ▸ hop)
    · exact Or.inr (hdrop ▸ hop)
  · rintro (hop | hop)
    · exact ⟨_, hop, by simp [indexEdits, Editing.plain]⟩
    · exact ⟨_, hop, by simp [indexEdits, Editing.plain]⟩

theorem indexes_reached (hcat : cat.Rooted) (hdescribes : Describes desired current cat)
    (hdesired : desired.Unambiguous) (r : Owned IndexIR) :
    r ∈ (cat.run (diffSchemas desired current defaults)).indexes ↔
      r.table ∈ namesOf desired.tables ∧ r.item ∈ (desired.table r.table).indexes := by
  have hroot : ∀ r ∈ cat.indexes, r.table ∈ namesOf current.tables :=
    fun r hr => (hdescribes.tables _).mp (hcat.indexes r hr)
  -- an index name leads back to its table
  have howner : ∀ r ∈ cat.indexes, ∀ t,
      r.item.name ∈ namesOf (current.table t).indexes → t = r.table := by
    intro r hr t hname
    rcases mem_namesOf.mp hname with ⟨i, hi, hi_name⟩
    have hlisted := hdescribes.indexes.sound t i hi
    exact congrArg Owned.table (hcat.indexNames _ hlisted r hr hi_name)
  rw [Catalog.run_indexes]
  refine members_reached separates_indexes (fun _ _ => rfl)
    hdescribes.indexes hroot hdescribes.unambiguous.indexes
    hdesired.indexes ?_ ?_ r
  · intro r hr
    have hcurrent := hroot r hr
    rw [index_dropped_iff, dropTable_mem_teardown, dropIndex_mem_teardown,
      mem_dropNames]
    constructor
    · rintro (⟨_, hgone⟩ | ⟨t, ht, hchanged⟩ | ⟨t, ht, hname⟩)
      · exact Or.inl hgone
      · have hsame := howner r hr t (mem_removedOrChanged.mp hchanged).1
        rw [hsame] at hchanged
        exact Or.inr hchanged
      · rw [howner r hr t hname] at ht
        exact Or.inl (mem_dropNames.mp ht).2
    · rintro (hgone | hchanged)
      · exact Or.inl ⟨hcurrent, hgone⟩
      · by_cases htable : r.table ∈ namesOf desired.tables
        · exact Or.inr (Or.inl
            ⟨r.table, mem_sharedNames.mpr ⟨htable, hcurrent⟩, hchanged⟩)
        · exact Or.inl ⟨hcurrent, htable⟩
  · intro r
    rw [name_index, ← @createIndex_mem_buildup _ _ defaults]
    constructor
    · rintro ⟨op, hop, hadds⟩
      cases op <;> simp [indexEdits, Editing.plain] at hadds
      subst hadds
      exact hop
    · intro hop
      exact ⟨_, hop, by simp [indexEdits, Editing.plain]⟩

theorem check_dropped_iff {ops : MigrationPlan} {r : Owned CheckIR} :
    (∃ op ∈ ops, checkEdits.drops op r = true) ↔
      .dropTable r.table ∈ ops ∨ .dropCheck r.table r.item.name ∈ ops := by
  constructor
  · rintro ⟨op, hop, hdrop⟩
    cases op <;> simp [checkEdits, Editing.plain] at hdrop
    · exact Or.inl (hdrop ▸ hop)
    · rcases hdrop with ⟨rfl, rfl⟩
      exact Or.inr hop
  · rintro (hop | hop)
    · exact ⟨_, hop, by simp [checkEdits, Editing.plain]⟩
    · exact ⟨_, hop, by simp [checkEdits, Editing.plain]⟩

theorem checks_reached (hcat : cat.Rooted) (hdescribes : Describes desired current cat)
    (hdesired : desired.Unambiguous) (r : Owned CheckIR) :
    r ∈ (cat.run (diffSchemas desired current defaults)).checks ↔
      r.table ∈ namesOf desired.tables ∧ r.item ∈ (desired.table r.table).checks := by
  have hroot : ∀ r ∈ cat.checks, r.table ∈ namesOf current.tables :=
    fun r hr => (hdescribes.tables _).mp (hcat.checks r hr)
  rw [Catalog.run_checks]
  refine members_reached separates_checks (fun _ _ => rfl)
    hdescribes.checks hroot hdescribes.unambiguous.checks hdesired.checks ?_ ?_ r
  · intro r hr
    have hcurrent := hroot r hr
    rw [check_dropped_iff, dropTable_mem_teardown, dropCheck_mem_teardown,
      mem_dropNames, mem_sharedNames]
    constructor
    · rintro (⟨_, hgone⟩ | ⟨_, hchanged⟩ | ⟨⟨_, hgone⟩, _⟩)
      · exact Or.inl hgone
      · exact Or.inr hchanged
      · exact Or.inl hgone
    · rintro (hgone | hchanged)
      · exact Or.inl ⟨hcurrent, hgone⟩
      · by_cases htable : r.table ∈ namesOf desired.tables
        · exact Or.inr (Or.inl ⟨⟨htable, hcurrent⟩, hchanged⟩)
        · exact Or.inl ⟨hcurrent, htable⟩
  · intro r
    rw [name_check, ← @addCheck_mem_buildup _ _ defaults]
    constructor
    · rintro ⟨op, hop, hadds⟩
      cases op <;> simp [checkEdits, Editing.plain] at hadds
      subst hadds
      exact hop
    · intro hop
      exact ⟨_, hop, by simp [checkEdits, Editing.plain]⟩

theorem tableEntry_reached (e : TableEntry) :
    e ∈ (cat.run (diffSchemas desired current defaults)).tables ↔
      (e ∈ cat.tables ∧ .dropTable e.name ∉ teardown desired current) ∨
        ∃ m ∈ createNames desired current, e = ⟨m, (desired.table m).primaryKey⟩ := by
  rw [Catalog.run_tables, mem_run_diffSchemas separates_tables (fun _ _ => rfl)]
  apply or_congr
  · apply and_congr_right
    intro _
    constructor
    · intro hkept hop
      simpa [tableEdits, Editing.plain] using hkept _ hop
    · intro hkept op hop
      cases op <;> simp [tableEdits, Editing.plain]
      intro hname
      exact hkept (hname ▸ hop)
  · constructor
    · rintro ⟨op, hop, hadds⟩
      cases op <;> simp [tableEdits, Editing.plain] at hadds
      rcases createTable_mem_buildup.mp hop with ⟨m, hm, rfl⟩
      refine ⟨m, hm, ?_⟩
      rw [hadds]
      simp [tableWithoutFksIndexesOrChecks, SchemaIR.table_name]
    · rintro ⟨m, hm, rfl⟩
      refine ⟨_, createTable_mem_buildup.mpr ⟨m, hm, rfl⟩, ?_⟩
      simp [tableEdits, Editing.plain, tableWithoutFksIndexesOrChecks,
        SchemaIR.table_name]

theorem tables_reached (hdescribes : Describes desired current cat) (n : String) :
    (cat.run (diffSchemas desired current defaults)).HasTable n ↔
      n ∈ namesOf desired.tables := by
  constructor
  · rintro ⟨e, he, rfl⟩
    rcases (tableEntry_reached e).mp he with ⟨hold, hkept⟩ | ⟨m, hm, rfl⟩
    · have hcurrent := (hdescribes.tables e.name).mp ⟨e, hold, rfl⟩
      rw [dropTable_mem_teardown, mem_dropNames] at hkept
      by_contra hgone
      exact hkept ⟨hcurrent, hgone⟩
    · exact (mem_createNames.mp hm).1
  · intro hn
    by_cases hcurrent : n ∈ namesOf current.tables
    · rcases (hdescribes.tables n).mpr hcurrent with ⟨e, he, rfl⟩
      refine ⟨e, (tableEntry_reached e).mpr (Or.inl ⟨he, ?_⟩), rfl⟩
      rw [dropTable_mem_teardown, mem_dropNames]
      exact fun hdrop => hdrop.2 hn
    · exact ⟨_, (tableEntry_reached _).mpr
        (Or.inr ⟨n, mem_createNames.mpr ⟨hn, hcurrent⟩, rfl⟩), rfl⟩

theorem sequences_reached (hdescribes : Describes desired current cat)
    (hdesired : desired.Unambiguous) (n : String) :
    (cat.run (diffSchemas desired current defaults)).HasSequence n ↔
      n ∈ namesOf desired.sequences ∨
        (cat.HasSequence n ∧ n ∉ namesOf current.sequences) := by
  have hrow : ∀ s : SequenceIR,
      s ∈ (cat.run (diffSchemas desired current defaults)).sequences ↔
        (s ∈ cat.sequences ∧ .dropSequence s.name ∉ teardown desired current) ∨
        .createSequence s ∈ buildup desired current defaults := by
    intro s
    rw [Catalog.run_sequences,
      mem_run_diffSchemas separates_sequences (fun _ _ => rfl)]
    apply or_congr
    · apply and_congr_right
      intro _
      constructor
      · intro hkept hop
        simpa [sequenceEdits, Editing.plain] using hkept _ hop
      · intro hkept op hop
        cases op <;> simp [sequenceEdits, Editing.plain]
        intro hname
        exact hkept (hname ▸ hop)
    · constructor
      · rintro ⟨op, hop, hadds⟩
        cases op <;> simp [sequenceEdits, Editing.plain] at hadds
        exact hadds ▸ hop
      · intro hop
        exact ⟨_, hop, by simp [sequenceEdits, Editing.plain]⟩
  constructor
  · rintro ⟨s, hs, rfl⟩
    rcases (hrow s).mp hs with ⟨hold, hkept⟩ | hnew
    · rw [dropSequence_mem_teardown] at hkept
      by_cases hname : s.name ∈ namesOf desired.sequences
      · exact Or.inl hname
      · exact Or.inr ⟨⟨s, hold, rfl⟩, fun hcurrent => hkept ⟨hcurrent, hname⟩⟩
    · have hlookup := (createSequence_mem_buildup.mp hnew).1
      exact Or.inl (name_mem_namesOf (byName_some hlookup).1)
  · rintro (hn | ⟨⟨s, hs, rfl⟩, hcurrent⟩)
    · by_cases hcurrent : n ∈ namesOf current.sequences
      · rcases (hdescribes.sequences n hn).mpr hcurrent with ⟨s, hs, rfl⟩
        refine ⟨s, (hrow s).mpr (Or.inl ⟨hs, ?_⟩), rfl⟩
        rw [dropSequence_mem_teardown]
        exact fun hdrop => hdrop.2 hn
      · rcases mem_namesOf.mp hn with ⟨s, hs, rfl⟩
        refine ⟨s, (hrow s).mpr (Or.inr ?_), rfl⟩
        exact createSequence_mem_buildup.mpr ⟨hdesired.sequences.byName hs, hcurrent⟩
    · refine ⟨s, (hrow s).mpr (Or.inl ⟨hs, ?_⟩), rfl⟩
      rw [dropSequence_mem_teardown]
      exact fun hdrop => hcurrent hdrop.1

end Kinds

/-! ## Columns -/

theorem columnEdits_key (op : MigrationOp) (r : Owned ColumnIR) :
    (columnEdits.alters op r).table = r.table ∧
      (columnEdits.alters op r).item.name = r.item.name := by
  cases op with
  | alterColumnType t n fromType toType =>
      by_cases hkey : r.table = t ∧ r.item.name = n <;>
        simp [columnEdits, hkey]
  | alterColumnNullability t n nullable =>
      by_cases hkey : r.table = t ∧ r.item.name = n <;>
        simp [columnEdits, hkey]
  | _ => exact ⟨rfl, rfl⟩

theorem columnEdits_foldl_key (ops : MigrationPlan) (r : Owned ColumnIR) :
    (ops.foldl (fun row op => columnEdits.alters op row) r).table = r.table ∧
      (ops.foldl (fun row op => columnEdits.alters op row) r).item.name =
        r.item.name := by
  induction ops generalizing r with
  | nil => exact ⟨rfl, rfl⟩
  | cons op ops ih =>
      have hop := columnEdits_key op r
      have hrest := ih (columnEdits.alters op r)
      exact ⟨hrest.1.trans hop.1, hrest.2.trans hop.2⟩

/-- Whether a column is dropped depends on its table and its name. -/
theorem columnEdits_drops_congr {op : MigrationOp} {r r' : Owned ColumnIR}
    (htable : r.table = r'.table) (hname : r.item.name = r'.item.name) :
    columnEdits.drops op r = columnEdits.drops op r' := by
  cases op <;> simp [columnEdits, htable, hname]

theorem column_dropped_iff {ops : MigrationPlan} {r : Owned ColumnIR} :
    (∃ op ∈ ops, columnEdits.drops op r = true) ↔
      .dropTable r.table ∈ ops ∨ .dropColumn r.table r.item.name ∈ ops := by
  constructor
  · rintro ⟨op, hop, hdrop⟩
    cases op <;> simp [columnEdits] at hdrop
    · exact Or.inl (hdrop ▸ hop)
    · rcases hdrop with ⟨rfl, rfl⟩
      exact Or.inr hop
  · rintro (hop | hop)
    · exact ⟨_, hop, by simp [columnEdits]⟩
    · exact ⟨_, hop, by simp [columnEdits]⟩

section Columns

variable {desired current : SchemaIR} {cat : Catalog}
  {defaults : ColumnAddDefaults} {t : String} {want has : ColumnIR}

/-- The first half of a plan turns a column that stays into the desired one. -/
theorem column_settles (htable : t ∈ sharedNames desired current)
    (hdesired : NamesAgree (desired.table t).columns)
    (hwant : byName (desired.table t).columns has.name = some want)
    (hhas : byName (current.table t).columns has.name = some has) :
    (teardown desired current).foldl (fun row op => columnEdits.alters op row)
      ⟨t, has⟩ = ⟨t, want⟩ := by
  have hname : want.name = has.name := (byName_some hwant).2
  have hkey := columnEdits_foldl_key (teardown desired current) ⟨t, has⟩
  -- a desired column of this name is `want`
  have honly : ∀ m other, byName (desired.table t).columns m = some other →
      other.name = has.name → other = want := by
    intro m other hother hsame
    have hlookup := hdesired.byName (byName_some hother).1
    rw [name_column, hsame, hwant] at hlookup
    exact (Option.some.inj hlookup).symm
  have hQ : ∀ op ∈ teardown desired current, ∀ r : Owned ColumnIR,
      r.table = t ∧ r.item.name = has.name →
        (columnEdits.alters op r).table = t ∧
          (columnEdits.alters op r).item.name = has.name := by
    intro op _ r hr
    have hop := columnEdits_key op r
    exact ⟨hop.1.trans hr.1, hop.2.trans hr.2⟩
  have htype := @Editing.foldl_settles _ _ columnEdits (teardown desired current)
    ⟨t, has⟩ _ (fun r => r.table = t ∧ r.item.name = has.name)
    (fun r => r.item.typeName) want.typeName hQ
    (by
      intro op hop
      cases op with
      | alterColumnType t' n fromType toType =>
          by_cases hhere : t' = t ∧ n = has.name
          · rcases hhere with ⟨rfl, rfl⟩
            rcases alterColumnType_mem_teardown.mp hop with
              ⟨_, m, other, _, hother, _, _, hsame, _, rfl⟩
            right
            intro r hr
            rw [← honly m other hother hsame.symm]
            simp [columnEdits, hr]
          · left
            intro r hr
            have hmiss : ¬(t = t' ∧ has.name = n) :=
              fun h => hhere ⟨h.1.symm, h.2.symm⟩
            simp [columnEdits, hr, hmiss]
      | alterColumnNullability t' n nullable =>
          left
          intro r _
          by_cases hhere : r.table = t' ∧ r.item.name = n <;>
            simp [columnEdits, hhere]
      | _ => exact Or.inl fun _ _ => rfl)
    ⟨rfl, rfl⟩
    (by
      by_cases hsame : has.typeName = want.typeName
      · exact Or.inl hsame
      · refine Or.inr ⟨_, alterColumnType_mem_teardown.mpr ⟨htable, has.name, want, has,
          hwant, hhas, fun h => hsame h.symm, rfl, rfl, rfl⟩, ?_⟩
        intro r hr
        simp [columnEdits, hr, hname])
  have hnull := @Editing.foldl_settles _ _ columnEdits (teardown desired current)
    ⟨t, has⟩ _ (fun r => r.table = t ∧ r.item.name = has.name)
    (fun r => r.item.nullable) want.nullable hQ
    (by
      intro op hop
      cases op with
      | alterColumnNullability t' n nullable =>
          by_cases hhere : t' = t ∧ n = has.name
          · rcases hhere with ⟨rfl, rfl⟩
            rcases alterColumnNullability_mem_teardown.mp hop with
              ⟨_, m, other, _, hother, _, _, hsame, rfl⟩
            right
            intro r hr
            rw [← honly m other hother hsame.symm]
            simp [columnEdits, hr]
          · left
            intro r hr
            have hmiss : ¬(t = t' ∧ has.name = n) :=
              fun h => hhere ⟨h.1.symm, h.2.symm⟩
            simp [columnEdits, hr, hmiss]
      | alterColumnType t' n fromType toType =>
          left
          intro r _
          by_cases hhere : r.table = t' ∧ r.item.name = n <;>
            simp [columnEdits, hhere]
      | _ => exact Or.inl fun _ _ => rfl)
    ⟨rfl, rfl⟩
    (by
      by_cases hsame : has.nullable = want.nullable
      · exact Or.inl hsame
      · refine Or.inr ⟨_, alterColumnNullability_mem_teardown.mpr ⟨htable, has.name, want,
          has, hwant, hhas, fun h => hsame h.symm, rfl, rfl⟩, ?_⟩
        intro r hr
        simp [columnEdits, hr, hname])
  generalize (teardown desired current).foldl
    (fun row op => columnEdits.alters op row) ⟨t, has⟩ = row at hkey htype hnull ⊢
  rcases row with ⟨table, ⟨rowName, rowType, rowNullable⟩⟩
  rcases want with ⟨wantName, wantType, wantNullable⟩
  simp_all

theorem mem_run_buildup {ρ : Type} {E : Editing MigrationOp ρ} (hE : Separates E)
    {rows : List ρ} {r : ρ} :
    r ∈ E.run (buildup desired current defaults) rows ↔
      r ∈ rows ∨ ∃ op ∈ buildup desired current defaults, r ∈ E.adds op := by
  have hkeeps : ∀ op ∈ buildup desired current defaults, E.drops op r = false :=
    fun op hop => hE.drops op (takesDown_of_mem_buildup hop) r
  have hleaves : ∀ op ∈ buildup desired current defaults, ∀ r, E.alters op r = r :=
    fun op hop => hE.alters op (takesDown_of_mem_buildup hop)
  constructor
  · intro hr
    rcases Editing.mem_run_origin hleaves hr with ⟨hold, _⟩ | hnew
    · exact Or.inl hold
    · exact Or.inr hnew
  · rintro (hr | ⟨op, hop, hadds⟩)
    · exact Editing.mem_run_kept hleaves hr hkeeps
    · exact Editing.mem_run_added hleaves hop hadds hkeeps

/-- The columns that the second half adds. -/
theorem column_added_iff {r : Owned ColumnIR} :
    (∃ op ∈ buildup desired current defaults, r ∈ columnEdits.adds op) ↔
      r.table ∈ namesOf desired.tables ∧ r.item ∈ (desired.table r.table).columns ∧
        (r.table ∉ namesOf current.tables ∨
          r.item.name ∉ namesOf (current.table r.table).columns) := by
  constructor
  · rintro ⟨op, hop, hadds⟩
    cases op with
    | createTable table =>
        rcases createTable_mem_buildup.mp hop with ⟨n, hn, rfl⟩
        rcases List.mem_map.mp hadds with ⟨c, hc, rfl⟩
        have hnew := mem_createNames.mp hn
        simp only [tableWithoutFksIndexesOrChecks, SchemaIR.table_name] at hc ⊢
        exact ⟨hnew.1, hc, Or.inl hnew.2⟩
    | addColumn table c addDefault =>
        rcases addColumn_mem_buildup.mp hop with ⟨htable, hc, hnew, _⟩
        have hr : r = ⟨table, c⟩ := by simpa [columnEdits] using hadds
        subst hr
        exact ⟨(mem_sharedNames.mp htable).1, hc, Or.inr hnew⟩
    | _ => simp [columnEdits] at hadds
  · rintro ⟨htable, hitem, hnew⟩
    by_cases hcurrent : r.table ∈ namesOf current.tables
    · have hname := hnew.resolve_left (not_not.mpr hcurrent)
      refine ⟨_, addColumn_mem_buildup.mpr
        ⟨mem_sharedNames.mpr ⟨htable, hcurrent⟩, hitem, hname, rfl⟩, ?_⟩
      simp [columnEdits]
    · refine ⟨_, createTable_mem_buildup.mpr
        ⟨r.table, mem_createNames.mpr ⟨htable, hcurrent⟩, rfl⟩, ?_⟩
      refine List.mem_map.mpr ⟨r.item, ?_, ?_⟩
      · simpa [tableWithoutFksIndexesOrChecks] using hitem
      · simp [tableWithoutFksIndexesOrChecks, SchemaIR.table_name]

theorem columns_reached (hcat : cat.Rooted) (hdescribes : Describes desired current cat)
    (hdesired : desired.Unambiguous) (r : Owned ColumnIR) :
    r ∈ (cat.run (diffSchemas desired current defaults)).columns ↔
      r.table ∈ namesOf desired.tables ∧ r.item ∈ (desired.table r.table).columns := by
  rw [Catalog.run_columns, diffSchemas_eq, Editing.run_append,
    mem_run_buildup separates_columns, column_added_iff]
  have hadds : ∀ op ∈ teardown desired current, columnEdits.adds op = [] :=
    fun op hop => separates_columns.adds op (takesDown_of_mem_teardown hop)
  constructor
  · rintro (hold | ⟨htable, hitem, _⟩)
    · rcases Editing.mem_run_rewritten hadds hold with ⟨old, hmem, heq, hkept⟩
      -- no operation drops the column, under whatever type it has by then
      have hstays : ¬∃ op ∈ teardown desired current, columnEdits.drops op old = true := by
        rintro ⟨op, hop, hdrop⟩
        rcases List.mem_iff_append.mp hop with ⟨pre, post, hsplit⟩
        have hkey := columnEdits_foldl_key pre old
        have hno := hkept pre op post hsplit
        rw [columnEdits_drops_congr hkey.1 hkey.2, hdrop] at hno
        cases hno
      rw [column_dropped_iff, dropTable_mem_teardown, dropColumn_mem_teardown,
        mem_dropNames, mem_sharedNames] at hstays
      have hcurrent := (hdescribes.tables _).mp (hcat.columns old hmem)
      have htable : old.table ∈ namesOf desired.tables := by
        by_contra hgone
        exact hstays (Or.inl ⟨hcurrent, hgone⟩)
      have hlisted := hdescribes.columns.complete old hmem htable
      have hname : old.item.name ∈ namesOf (desired.table old.table).columns := by
        by_contra hgone
        exact hstays (Or.inr ⟨⟨htable, hcurrent⟩, name_mem_namesOf hlisted, hgone⟩)
      rcases exists_byName hname with ⟨want, hwant⟩
      have hsettled := column_settles (mem_sharedNames.mpr ⟨htable, hcurrent⟩)
        (hdesired.columns old.table) hwant
        ((hdescribes.unambiguous.columns old.table).byName hlisted)
      have hr : r = ⟨old.table, want⟩ := heq.trans hsettled
      subst hr
      exact ⟨htable, (byName_some hwant).1⟩
    · exact ⟨htable, hitem⟩
  · rintro ⟨htable, hitem⟩
    by_cases hnew : r.table ∉ namesOf current.tables ∨
        r.item.name ∉ namesOf (current.table r.table).columns
    · exact Or.inr ⟨htable, hitem, hnew⟩
    · rw [not_or, not_not, not_not] at hnew
      rcases exists_byName hnew.2 with ⟨has, hhas⟩
      rcases byName_some hhas with ⟨hlisted, hname⟩
      have hwant : byName (desired.table r.table).columns has.name = some r.item := by
        have hlookup := (hdesired.columns r.table).byName hitem
        rwa [name_column, ← hname] at hlookup
      have hsettled := column_settles (mem_sharedNames.mpr ⟨htable, hnew.1⟩)
        (hdesired.columns r.table) hwant (by rwa [← hname] at hhas)
      have hrow := hdescribes.columns.sound r.table has hlisted
      have hfollow := Editing.mem_run_follow hrow fun pre op post
          (hsplit : teardown desired current = pre ++ op :: post) => by
        have hop : op ∈ teardown desired current := by
          rw [hsplit]
          exact List.mem_append_right _ (.head _)
        have hkey := columnEdits_foldl_key pre ⟨r.table, has⟩
        rw [columnEdits_drops_congr hkey.1 hkey.2]
        by_contra hdrop
        have hdropped := column_dropped_iff.mp ⟨op, hop, by simpa using hdrop⟩
        rw [dropTable_mem_teardown, dropColumn_mem_teardown, mem_dropNames] at hdropped
        rcases hdropped with ⟨_, hgone⟩ | ⟨_, _, hgone⟩
        · exact hgone htable
        · apply hgone
          rw [← name_column, hname]
          exact name_mem_namesOf hitem
      rw [hsettled] at hfollow
      exact Or.inl hfollow

end Columns

end Untangled.Schema
