import Untangled.SchemaDiffOrder

/-!
# A plan can be executed

At every operation of a plan the catalog is what the operations before it left.
From the order of the plan follows what these have done already and what they
cannot have done, and with it that the operation is allowed.
-/

namespace Untangled.Schema

/-- The operations before one operation of a plan. -/
structure Upto (plan pre : MigrationPlan) (op : MigrationOp) : Prop where
  before : ∀ a ∈ pre, a ∈ plan ∧ a.Before op
  mem : op ∈ plan
  earlier : ∀ a ∈ plan, a.phase < op.phase → a ∈ pre
  defaults : ∀ a ∈ plan, a ≠ op → a ∉ pre → op.Before a
  halves : ∃ down up, pre = down ++ up ∧ (∀ a ∈ down, a.takesDown = true) ∧
    ∀ a ∈ up, a.takesDown = false

theorem upto_of_split {desired current : SchemaIR} {defaults : ColumnAddDefaults}
    (hdesired : desired.WellFormed) (hcurrent : current.WellFormed)
    {pre post : MigrationPlan} {op : MigrationOp}
    (hsplit : diffSchemas desired current defaults = pre ++ op :: post) :
    Upto (diffSchemas desired current defaults) pre op := by
  have hordered := @plan_before _ _ defaults hdesired hcurrent
  rw [hsplit, List.pairwise_append, List.pairwise_cons] at hordered
  rcases hordered with ⟨_, ⟨hpost, _⟩, hpre⟩
  have hmem : ∀ a, a ∈ diffSchemas desired current defaults ↔
      a ∈ pre ∨ a = op ∨ a ∈ post := by
    intro a
    rw [hsplit]
    simp
  refine ⟨?_, ?_, ?_, ?_, ?_⟩
  · intro a ha
    exact ⟨(hmem a).mpr (Or.inl ha), hpre a ha op (.head _)⟩
  · exact (hmem op).mpr (Or.inr (Or.inl rfl))
  · intro a ha hlt
    rcases (hmem a).mp ha with ha | rfl | ha
    · exact ha
    · exact absurd hlt (lt_irrefl _)
    · exact absurd (hpost a ha).phase (not_le.mpr hlt)
  · intro a ha hne hnot
    rcases (hmem a).mp ha with ha | ha | ha
    · exact absurd ha hnot
    · exact absurd ha hne
    · exact hpost a ha
  · rw [diffSchemas_eq] at hsplit
    rcases List.append_eq_append_iff.mp hsplit with
      ⟨up, hpre, hup⟩ | ⟨rest, hdown, _⟩
    · refine ⟨_, up, hpre, fun a ha => takesDown_of_mem_teardown ha, ?_⟩
      intro a ha
      have hbuild : a ∈ buildup desired current defaults := by
        rw [hup]
        exact List.mem_append_left _ ha
      exact takesDown_of_mem_buildup hbuild
    · refine ⟨pre, [], by simp, ?_, by simp⟩
      intro a ha
      have hteardown : a ∈ teardown desired current := by
        rw [hdown]
        exact List.mem_append_left _ ha
      exact takesDown_of_mem_teardown hteardown

namespace Upto

section Rows

variable {ρ : Type} {E : Editing MigrationOp ρ} {rows : List ρ} {r : ρ}
  {plan pre : MigrationPlan} {op : MigrationOp}

theorem mem_run (hupto : Upto plan pre op) (hE : Separates E)
    (hplain : ∀ op r, E.alters op r = r) :
    r ∈ E.run pre rows ↔
      (r ∈ rows ∧ ∀ a ∈ pre, E.drops a r = false) ∨ ∃ a ∈ pre, r ∈ E.adds a := by
  rcases hupto.halves with ⟨down, up, rfl, hdown, hup⟩
  constructor
  · exact Editing.mem_run_origin fun a _ => hplain a
  · rintro (⟨hr, hkept⟩ | ⟨a, ha, hadds⟩)
    · exact Editing.mem_run_kept (fun a _ => hplain a) hr hkept
    · rw [Editing.run_append]
      rcases List.mem_append.mp ha with ha | ha
      · rw [hE.adds a (hdown a ha)] at hadds
        cases hadds
      · exact Editing.mem_run_added (fun a _ => hplain a) ha hadds
          fun b hb => hE.drops b (hup b hb) r

end Rows

variable {desired current : SchemaIR} {defaults : ColumnAddDefaults}
  {pre : MigrationPlan} {op : MigrationOp}

theorem mem_teardown {a : MigrationOp}
    (ha : a ∈ diffSchemas desired current defaults) (hdown : a.takesDown = true) :
    a ∈ teardown desired current := by
  rw [diffSchemas_eq, List.mem_append] at ha
  rcases ha with ha | ha
  · exact ha
  · rw [takesDown_of_mem_buildup ha] at hdown
    cases hdown

theorem mem_buildup {a : MigrationOp}
    (ha : a ∈ diffSchemas desired current defaults) (hup : a.takesDown = false) :
    a ∈ buildup desired current defaults := by
  rw [diffSchemas_eq, List.mem_append] at ha
  rcases ha with ha | ha
  · rw [takesDown_of_mem_teardown ha] at hup
    cases hup
  · exact ha

theorem mem_plan_of_teardown {a : MigrationOp} (ha : a ∈ teardown desired current) :
    a ∈ diffSchemas desired current defaults := by
  rw [diffSchemas_eq]
  exact List.mem_append_left _ ha

theorem mem_plan_of_buildup {a : MigrationOp}
    (ha : a ∈ buildup desired current defaults) :
    a ∈ diffSchemas desired current defaults := by
  rw [diffSchemas_eq]
  exact List.mem_append_right _ ha

/-- A member that the plan neither drops with its table nor by itself is
desired. -/
theorem member_kept {α : Type} [Named α] [DecidableEq α]
    {members : TableIR → List α} {t : String} {m : α}
    (hagree : NamesAgree (members (current.table t)))
    (ht : t ∈ namesOf current.tables) (hm : m ∈ members (current.table t))
    (hkept : ¬((t ∈ sharedNames desired current ∧ name m ∈ removedOrChanged
        (members (desired.table t)) (members (current.table t))) ∨
      (t ∈ dropNames desired current ∧
        name m ∈ namesOf (members (current.table t))))) :
    m ∈ members (desired.table t) := by
  have hname := name_mem_namesOf hm
  have htable : t ∈ namesOf desired.tables := by
    by_contra hgone
    exact hkept (Or.inr ⟨mem_dropNames.mpr ⟨ht, hgone⟩, hname⟩)
  have hsame : byName (members (desired.table t)) (name m) =
      byName (members (current.table t)) (name m) := by
    by_contra hne
    exact hkept (Or.inl ⟨mem_sharedNames.mpr ⟨htable, ht⟩,
      mem_removedOrChanged.mpr ⟨hname, hne⟩⟩)
  rw [hagree.byName hm] at hsame
  exact (byName_some hsame).1

section Live

variable (hupto : Upto (diffSchemas desired current defaults) pre op)
  (hcurrent : current.WellFormed)
include hupto hcurrent

/-- Once the foreign keys are taken down, those that are left are desired. -/
theorem live_foreignKey (hphase : 0 < op.phase) {r : Owned ForeignKeyIR}
    (hr : r ∈ (current.catalog.run pre).foreignKeys) :
    r.item ∈ (desired.table r.table).foreignKeys ∧
      (r.item ∈ (current.table r.table).foreignKeys ∨
        .addForeignKey r.table r.item ∈ pre) := by
  rw [Catalog.run_foreignKeys, hupto.mem_run separates_foreignKeys fun _ _ => rfl] at hr
  rcases hr with ⟨hold, hkept⟩ | ⟨a, ha, hadds⟩
  · rcases hcurrent.mem_foreignKeys.mp hold with ⟨htable, hitem⟩
    refine ⟨?_, Or.inl hitem⟩
    apply member_kept (hcurrent.unambiguous.foreignKeys r.table) htable hitem
    rw [name_foreignKey, ← dropForeignKey_mem_teardown]
    intro hdrop
    have hno := hkept _ (hupto.earlier _ (mem_plan_of_teardown hdrop) hphase)
    simp [foreignKeyEdits, Editing.plain] at hno
  · cases a <;> simp [foreignKeyEdits, Editing.plain] at hadds
    subst hadds
    have hbuild := mem_buildup (hupto.before _ ha).1 rfl
    exact ⟨(addForeignKey_mem_buildup.mp hbuild).2.1, Or.inr ha⟩

theorem live_index (hphase : 1 < op.phase) {r : Owned IndexIR}
    (hr : r ∈ (current.catalog.run pre).indexes) :
    r.item ∈ (desired.table r.table).indexes ∧
      (r.item ∈ (current.table r.table).indexes ∨ .createIndex r.table r.item ∈ pre) := by
  rw [Catalog.run_indexes, hupto.mem_run separates_indexes fun _ _ => rfl] at hr
  rcases hr with ⟨hold, hkept⟩ | ⟨a, ha, hadds⟩
  · rcases hcurrent.mem_indexes.mp hold with ⟨htable, hitem⟩
    refine ⟨?_, Or.inl hitem⟩
    apply member_kept (hcurrent.unambiguous.indexes r.table) htable hitem
    intro hgone
    have hdrop : .dropIndex r.item.name ∈ teardown desired current := by
      rw [dropIndex_mem_teardown]
      rcases hgone with hgone | hgone
      · exact Or.inl ⟨r.table, hgone⟩
      · exact Or.inr ⟨r.table, hgone⟩
    have hno := hkept _ (hupto.earlier _ (mem_plan_of_teardown hdrop) hphase)
    simp [indexEdits, Editing.plain] at hno
  · cases a <;> simp [indexEdits, Editing.plain] at hadds
    subst hadds
    have hbuild := mem_buildup (hupto.before _ ha).1 rfl
    exact ⟨(createIndex_mem_buildup.mp hbuild).2.1, Or.inr ha⟩

theorem live_check (hphase : 2 < op.phase) {r : Owned CheckIR}
    (hr : r ∈ (current.catalog.run pre).checks) :
    r.item ∈ (desired.table r.table).checks ∧
      (r.item ∈ (current.table r.table).checks ∨ .addCheck r.table r.item ∈ pre) := by
  rw [Catalog.run_checks, hupto.mem_run separates_checks fun _ _ => rfl] at hr
  rcases hr with ⟨hold, hkept⟩ | ⟨a, ha, hadds⟩
  · rcases hcurrent.mem_checks.mp hold with ⟨htable, hitem⟩
    refine ⟨?_, Or.inl hitem⟩
    apply member_kept (hcurrent.unambiguous.checks r.table) htable hitem
    rw [name_check, ← dropCheck_mem_teardown]
    intro hdrop
    have hno := hkept _ (hupto.earlier _ (mem_plan_of_teardown hdrop) hphase)
    simp [checkEdits, Editing.plain] at hno
  · cases a <;> simp [checkEdits, Editing.plain] at hadds
    subst hadds
    have hbuild := mem_buildup (hupto.before _ ha).1 rfl
    exact ⟨(addCheck_mem_buildup.mp hbuild).2.1, Or.inr ha⟩

end Live

/-! ## Tables -/

section Tables

variable (hupto : Upto (diffSchemas desired current defaults) pre op)
include hupto

theorem hasTable_iff {n : String} :
    (current.catalog.run pre).HasTable n ↔
      (n ∈ namesOf current.tables ∧ .dropTable n ∉ pre) ∨
        ∃ t, .createTable t ∈ pre ∧ t.name = n := by
  unfold Catalog.HasTable
  simp only [Catalog.run_tables, hupto.mem_run separates_tables fun _ _ => rfl]
  constructor
  · rintro ⟨e, ⟨hold, hkept⟩ | ⟨a, ha, hadds⟩, rfl⟩
    · refine Or.inl ⟨SchemaIR.catalog_hasTable.mp ⟨e, hold, rfl⟩, ?_⟩
      intro hdrop
      simpa [tableEdits, Editing.plain] using hkept _ hdrop
    · cases a <;> simp [tableEdits, Editing.plain] at hadds
      subst hadds
      exact Or.inr ⟨_, ha, rfl⟩
  · rintro (⟨hn, hkept⟩ | ⟨t, ht, rfl⟩)
    · rcases SchemaIR.catalog_hasTable.mpr hn with ⟨e, he, rfl⟩
      refine ⟨e, Or.inl ⟨he, ?_⟩, rfl⟩
      intro a ha
      cases a <;> simp [tableEdits, Editing.plain]
      rintro rfl
      exact hkept ha
    · exact ⟨⟨t.name, t.primaryKey⟩,
        Or.inr ⟨_, ht, by simp [tableEdits, Editing.plain]⟩, rfl⟩

theorem dropTable_not_mem {n : String} (hn : n ∈ namesOf desired.tables) :
    .dropTable n ∉ pre := by
  intro hdrop
  have hteardown := mem_teardown (hupto.before _ hdrop).1 rfl
  exact (mem_dropNames.mp (dropTable_mem_teardown.mp hteardown)).2 hn

/-- Once the tables are created, every desired table is there. -/
theorem table_there (hphase : 6 < op.phase) {n : String}
    (hn : n ∈ namesOf desired.tables) : (current.catalog.run pre).HasTable n := by
  rw [hupto.hasTable_iff]
  by_cases hold : n ∈ namesOf current.tables
  · exact Or.inl ⟨hold, hupto.dropTable_not_mem hn⟩
  · have hcreate := mem_plan_of_buildup ((@createTable_mem_buildup _ _ defaults _).mpr
      ⟨n, mem_createNames.mpr ⟨hn, hold⟩, rfl⟩)
    exact Or.inr ⟨_, hupto.earlier _ hcreate hphase, SchemaIR.table_name _ _⟩

end Tables

/-! ## Columns -/

/-- Columns seen through their table and name. -/
def columnKeyEdits : Editing MigrationOp (String × String) :=
  .plain
    (fun op k => match op with
      | .dropTable n => k.1 = n
      | .dropColumn t n => k.1 = t && k.2 = n
      | _ => false)
    (fun op => (columnEdits.adds op).map fun c => (c.table, c.item.name))

theorem separates_columnKeys : Separates columnKeyEdits where
  adds := by
    intro a ha
    simp [columnKeyEdits, Editing.plain, separates_columns.adds a ha]
  drops := by
    intro a ha k
    cases a <;> simp_all [MigrationOp.takesDown, columnKeyEdits, Editing.plain]
  alters := by
    intro a _ k
    rfl

theorem map_run_columns (cat : Catalog) (ops : MigrationPlan) :
    (cat.run ops).columns.map (fun c => (c.table, c.item.name)) =
      columnKeyEdits.run ops (cat.columns.map fun c => (c.table, c.item.name)) := by
  rw [Catalog.run_columns]
  apply Editing.map_run
  · intro a r
    cases a <;> rfl
  · intro a r
    have hkey := columnEdits_key a r
    rw [hkey.1, hkey.2]
  · intro a k
    rfl
  · intro a
    rfl

theorem hasColumn_iff_mem {cat : Catalog} {t n : String} :
    cat.HasColumn t n ↔ (t, n) ∈ cat.columns.map fun c => (c.table, c.item.name) := by
  simp [Catalog.HasColumn]

section Columns

variable (hupto : Upto (diffSchemas desired current defaults) pre op)
  (hcurrent : current.WellFormed)
include hupto

theorem hasColumn_iff {t n : String} :
    (current.catalog.run pre).HasColumn t n ↔
      (current.catalog.HasColumn t n ∧ .dropTable t ∉ pre ∧ .dropColumn t n ∉ pre) ∨
        ∃ a ∈ pre, ∃ c ∈ columnEdits.adds a, c.table = t ∧ c.item.name = n := by
  rw [hasColumn_iff_mem, map_run_columns,
    hupto.mem_run separates_columnKeys fun _ _ => rfl, ← hasColumn_iff_mem]
  apply or_congr
  · apply and_congr_right
    intro _
    constructor
    · intro hkept
      refine ⟨fun hdrop => ?_, fun hdrop => ?_⟩
      · simpa [columnKeyEdits, Editing.plain] using hkept _ hdrop
      · simpa [columnKeyEdits, Editing.plain] using hkept _ hdrop
    · rintro ⟨htable, hcolumn⟩ a ha
      cases a <;> simp [columnKeyEdits, Editing.plain]
      · rintro rfl
        exact htable ha
      · rintro rfl rfl
        exact hcolumn ha
  · simp [columnKeyEdits, Editing.plain]

include hcurrent

/-- Once the columns are added, every desired column is there. -/
theorem column_there (hphase : 7 < op.phase) {t n : String}
    (hn : n ∈ namesOf (desired.table t).columns) :
    (current.catalog.run pre).HasColumn t n := by
  rw [hupto.hasColumn_iff, hcurrent.catalog_hasColumn]
  rcases mem_namesOf.mp hn with ⟨c, hc, rfl⟩
  have htable := SchemaIR.mem_namesOf_tables (fun _ => rfl) hc
  by_cases hold : c.name ∈ namesOf (current.table t).columns
  · refine Or.inl ⟨hold, hupto.dropTable_not_mem htable, ?_⟩
    intro hdrop
    have hteardown := mem_teardown (hupto.before _ hdrop).1 rfl
    exact (dropColumn_mem_teardown.mp hteardown).2.2 hn
  · rcases (@column_added_iff desired current defaults ⟨t, c⟩).mpr
      ⟨htable, hc, Or.inr hold⟩ with ⟨a, ha, hadds⟩
    refine Or.inr ⟨a, ?_, _, hadds, rfl, rfl⟩
    apply hupto.earlier a (mem_plan_of_buildup ha)
    cases a <;> simp [columnEdits] at hadds
    · exact lt_of_lt_of_le (by decide : 6 < 8) hphase
    · exact hphase

end Columns

/-! ## Sequences -/

theorem hasSequence_iff (hupto : Upto (diffSchemas desired current defaults) pre op)
    {n : String} :
    (current.catalog.run pre).HasSequence n ↔
      (n ∈ namesOf current.sequences ∧ .dropSequence n ∉ pre) ∨
        ∃ s, .createSequence s ∈ pre ∧ s.name = n := by
  unfold Catalog.HasSequence
  simp only [Catalog.run_sequences, hupto.mem_run separates_sequences fun _ _ => rfl]
  constructor
  · rintro ⟨s, ⟨hold, hkept⟩ | ⟨a, ha, hadds⟩, rfl⟩
    · refine Or.inl ⟨name_mem_namesOf hold, ?_⟩
      intro hdrop
      simpa [sequenceEdits, Editing.plain] using hkept _ hdrop
    · cases a <;> simp [sequenceEdits, Editing.plain] at hadds
      subst hadds
      exact Or.inr ⟨s, ha, rfl⟩
  · rintro (⟨hn, hkept⟩ | ⟨s, hs, rfl⟩)
    · rcases mem_namesOf.mp hn with ⟨s, hs, rfl⟩
      refine ⟨s, Or.inl ⟨hs, ?_⟩, rfl⟩
      intro a ha
      cases a <;> simp [sequenceEdits, Editing.plain]
      rintro rfl
      exact hkept ha
    · exact ⟨s, Or.inr ⟨_, hs, by simp [sequenceEdits, Editing.plain]⟩, rfl⟩

/-! ## Why each operation is allowed -/

section Guards

theorem allowed_dropSequence {n : String}
    (hupto : Upto (diffSchemas desired current defaults) pre (.dropSequence n)) :
    (MigrationOp.dropSequence n).Allowed (current.catalog.run pre) := by
  have hhas := (dropSequence_mem_teardown.mp (mem_teardown hupto.mem rfl)).1
  refine hupto.hasSequence_iff.mpr (Or.inl ⟨hhas, ?_⟩)
  exact fun hdrop => (hupto.before _ hdrop).2.ne rfl

theorem allowed_createTable {t : TableIR}
    (hupto : Upto (diffSchemas desired current defaults) pre (.createTable t)) :
    (MigrationOp.createTable t).Allowed (current.catalog.run pre) := by
  rcases createTable_mem_buildup.mp (mem_buildup hupto.mem rfl) with ⟨n, hn, ht⟩
  have hname : t.name = n := by
    rw [ht]
    exact SchemaIR.table_name desired n
  intro hthere
  rcases hupto.hasTable_iff.mp hthere with ⟨hold, _⟩ | ⟨t', ht', hsame⟩
  · exact (mem_createNames.mp hn).2 (hname ▸ hold)
  · rcases createTable_mem_buildup.mp (mem_buildup (hupto.before _ ht').1 rfl) with
      ⟨n', _, rfl⟩
    have hname' : n' = n := by
      rw [← hname, ← hsame]
      exact (SchemaIR.table_name desired n').symm
    subst hname'
    exact (hupto.before _ ht').2.ne (by rw [ht])

theorem allowed_dropColumnDefault {t n : String}
    (hupto : Upto (diffSchemas desired current defaults) pre
      (.dropColumnDefault t n)) :
    (MigrationOp.dropColumnDefault t n).Allowed (current.catalog.run pre) := by
  have hbuild := mem_buildup hupto.mem rfl
  have hadded : ∃ c d, c.name = n ∧
      MigrationOp.addColumn t c d ∈ diffSchemas desired current defaults := by
    simp [Untangled.Schema.mem_buildup, mem_createTables, mem_addColumns, addColumnOps,
      mem_createSequences, createIndexes, addForeignKeys, addChecks,
      mem_addMembers] at hbuild
    rcases hbuild with ⟨htable, c, hc, hnew, _, hname⟩
    exact ⟨c, _, hname.symm, mem_plan_of_buildup
      (addColumn_mem_buildup.mpr ⟨htable, hc, hnew, rfl⟩)⟩
  rcases hadded with ⟨c, d, rfl, hplan⟩
  have hpre : MigrationOp.addColumn t c d ∈ pre := by
    by_contra hnot
    have hbefore := hupto.defaults _ hplan (by simp) hnot
    exact hbefore.addsFirst t c d rfl rfl
  exact hupto.hasColumn_iff.mpr
    (Or.inr ⟨_, hpre, ⟨t, c⟩, by simp [columnEdits], rfl, rfl⟩)

theorem allowed_createSequence {s : SequenceIR}
    (hupto : Upto (diffSchemas desired current defaults) pre (.createSequence s)) :
    (MigrationOp.createSequence s).Allowed (current.catalog.run pre) := by
  rcases createSequence_mem_buildup.mp (mem_buildup hupto.mem rfl) with ⟨hs, hnew⟩
  intro hthere
  rcases hupto.hasSequence_iff.mp hthere with ⟨hold, _⟩ | ⟨s', hs', hname⟩
  · exact hnew hold
  · have hlookup :=
      (createSequence_mem_buildup.mp (mem_buildup (hupto.before _ hs').1 rfl)).1
    rw [hname, hs] at hlookup
    exact (hupto.before _ hs').2.ne (by rw [Option.some.inj hlookup])

variable (hcurrent : current.WellFormed)
include hcurrent

theorem allowed_dropForeignKey {t n : String}
    (hupto : Upto (diffSchemas desired current defaults) pre (.dropForeignKey t n)) :
    (MigrationOp.dropForeignKey t n).Allowed (current.catalog.run pre) := by
  have hteardown := dropForeignKey_mem_teardown.mp (mem_teardown hupto.mem rfl)
  have hn : n ∈ namesOf (current.table t).foreignKeys := by
    rcases hteardown with ⟨_, hn⟩ | ⟨_, hn⟩
    · exact (mem_removedOrChanged.mp hn).1
    · exact hn
  rcases mem_namesOf.mp hn with ⟨fk, hfk, rfl⟩
  have hrow : (⟨t, fk⟩ : Owned ForeignKeyIR) ∈ current.catalog.foreignKeys :=
    hcurrent.mem_foreignKeys.mpr ⟨SchemaIR.mem_namesOf_tables (fun _ => rfl) hfk, hfk⟩
  refine ⟨⟨t, fk⟩, ?_, rfl, rfl⟩
  rw [Catalog.run_foreignKeys, hupto.mem_run separates_foreignKeys fun _ _ => rfl]
  refine Or.inl ⟨hrow, fun a ha => ?_⟩
  have hbefore := (hupto.before a ha).2
  cases a <;> simp [foreignKeyEdits, Editing.plain]
  · exact absurd hbefore.phase (by simp)
  · rintro rfl rfl
    exact hbefore.ne rfl

theorem allowed_dropIndex {n : String}
    (hupto : Upto (diffSchemas desired current defaults) pre (.dropIndex n)) :
    (MigrationOp.dropIndex n).Allowed (current.catalog.run pre) := by
  have hteardown := dropIndex_mem_teardown.mp (mem_teardown hupto.mem rfl)
  have hn : ∃ t, n ∈ namesOf (current.table t).indexes := by
    rcases hteardown with ⟨t, _, hn⟩ | ⟨t, _, hn⟩
    · exact ⟨t, (mem_removedOrChanged.mp hn).1⟩
    · exact ⟨t, hn⟩
  rcases hn with ⟨t, hn⟩
  rcases mem_namesOf.mp hn with ⟨i, hi, rfl⟩
  have hrow : (⟨t, i⟩ : Owned IndexIR) ∈ current.catalog.indexes :=
    hcurrent.mem_indexes.mpr ⟨SchemaIR.mem_namesOf_tables (fun _ => rfl) hi, hi⟩
  refine ⟨⟨t, i⟩, ?_, rfl⟩
  rw [Catalog.run_indexes, hupto.mem_run separates_indexes fun _ _ => rfl]
  refine Or.inl ⟨hrow, fun a ha => ?_⟩
  have hbefore := (hupto.before a ha).2
  cases a <;> simp [indexEdits, Editing.plain]
  · exact absurd hbefore.phase (by simp)
  · rintro rfl
    exact hbefore.ne rfl

theorem allowed_dropCheck {t n : String}
    (hupto : Upto (diffSchemas desired current defaults) pre (.dropCheck t n)) :
    (MigrationOp.dropCheck t n).Allowed (current.catalog.run pre) := by
  have hteardown := dropCheck_mem_teardown.mp (mem_teardown hupto.mem rfl)
  have hn : n ∈ namesOf (current.table t).checks := by
    rcases hteardown with ⟨_, hn⟩ | ⟨_, hn⟩
    · exact (mem_removedOrChanged.mp hn).1
    · exact hn
  rcases mem_namesOf.mp hn with ⟨c, hc, rfl⟩
  have hrow : (⟨t, c⟩ : Owned CheckIR) ∈ current.catalog.checks :=
    hcurrent.mem_checks.mpr ⟨SchemaIR.mem_namesOf_tables (fun _ => rfl) hc, hc⟩
  refine ⟨⟨t, c⟩, ?_, rfl, rfl⟩
  rw [Catalog.run_checks, hupto.mem_run separates_checks fun _ _ => rfl]
  refine Or.inl ⟨hrow, fun a ha => ?_⟩
  have hbefore := (hupto.before a ha).2
  cases a <;> simp [checkEdits, Editing.plain]
  · exact absurd hbefore.phase (by simp)
  · rintro rfl rfl
    exact hbefore.ne rfl

/-- Before the tables go, a column of the current schema is there unless it was
dropped. -/
theorem column_still_there (hupto : Upto (diffSchemas desired current defaults) pre op)
    (hphase : op.phase < 4) {t n : String}
    (hn : n ∈ namesOf (current.table t).columns) (hkept : .dropColumn t n ∉ pre) :
    (current.catalog.run pre).HasColumn t n := by
  rw [hupto.hasColumn_iff, hcurrent.catalog_hasColumn]
  refine Or.inl ⟨hn, ?_, hkept⟩
  intro hdrop
  exact absurd (hupto.before _ hdrop).2.phase (not_le.mpr hphase)

theorem allowed_alterColumnType {t n fromType toType : String}
    (hupto : Upto (diffSchemas desired current defaults) pre
      (.alterColumnType t n fromType toType)) :
    (MigrationOp.alterColumnType t n fromType toType).Allowed
      (current.catalog.run pre) := by
  rcases alterColumnType_mem_teardown.mp (mem_teardown hupto.mem rfl) with
    ⟨_, m, want, has, hwant, hhas, _, rfl, _, _⟩
  have hname : has.name = want.name :=
    (byName_some hhas).2.trans (byName_some hwant).2.symm
  apply column_still_there hcurrent hupto (by simp)
  · rw [← hname]
    exact name_mem_namesOf (byName_some hhas).1
  · intro hdrop
    have hteardown := mem_teardown (hupto.before _ hdrop).1 rfl
    exact (dropColumn_mem_teardown.mp hteardown).2.2
      (name_mem_namesOf (byName_some hwant).1)

theorem allowed_alterColumnNullability {t n : String} {nullable : Bool}
    (hupto : Upto (diffSchemas desired current defaults) pre
      (.alterColumnNullability t n nullable)) :
    (MigrationOp.alterColumnNullability t n nullable).Allowed
      (current.catalog.run pre) := by
  rcases alterColumnNullability_mem_teardown.mp (mem_teardown hupto.mem rfl) with
    ⟨_, m, want, has, hwant, hhas, _, rfl, _⟩
  have hname : has.name = want.name :=
    (byName_some hhas).2.trans (byName_some hwant).2.symm
  apply column_still_there hcurrent hupto (by simp)
  · rw [← hname]
    exact name_mem_namesOf (byName_some hhas).1
  · intro hdrop
    have hteardown := mem_teardown (hupto.before _ hdrop).1 rfl
    exact (dropColumn_mem_teardown.mp hteardown).2.2
      (name_mem_namesOf (byName_some hwant).1)

variable (hdesired : desired.WellFormed)
include hdesired

theorem allowed_dropColumn {t n : String}
    (hupto : Upto (diffSchemas desired current defaults) pre (.dropColumn t n)) :
    (MigrationOp.dropColumn t n).Allowed (current.catalog.run pre) := by
  rcases dropColumn_mem_teardown.mp (mem_teardown hupto.mem rfl) with ⟨_, hhas, hgone⟩
  have hdrop : MigrationOp.dropColumn t n ∉ pre :=
    fun hdrop => (hupto.before _ hdrop).2.ne rfl
  refine ⟨column_still_there hcurrent hupto (by simp) hhas hdrop, ?_⟩
  -- what is left of the indexes and foreign keys is desired and keeps its columns
  rintro (⟨i, hi, rfl, hn⟩ | ⟨fk, hfk, ⟨rfl, hn⟩ | ⟨rfl, hn⟩⟩)
  · have hlive := (hupto.live_index hcurrent (by simp) hi).1
    exact hgone (hdesired.index_column hlive hn)
  · have hlive := (hupto.live_foreignKey hcurrent (by simp) hfk).1
    exact hgone (hdesired.foreignKey_column hlive hn)
  · have hlive := (hupto.live_foreignKey hcurrent (by simp) hfk).1
    exact hgone ((hdesired.reference hlive).2 n hn)

theorem allowed_dropTable {n : String}
    (hupto : Upto (diffSchemas desired current defaults) pre (.dropTable n)) :
    (MigrationOp.dropTable n).Allowed (current.catalog.run pre) := by
  rcases mem_dropNames.mp (dropTable_mem_teardown.mp (mem_teardown hupto.mem rfl)) with
    ⟨hhas, hgone⟩
  refine ⟨hupto.hasTable_iff.mpr (Or.inl ⟨hhas, ?_⟩), ?_⟩
  · exact fun hdrop => (hupto.before _ hdrop).2.ne rfl
  · rintro ⟨fk, hfk, rfl, _⟩
    have hlive := (hupto.live_foreignKey hcurrent (by simp) hfk).1
    exact hgone (hdesired.reference hlive).1

theorem allowed_addColumn {t : String} {c : ColumnIR}
    {addDefault : Option AddDefaultValue}
    (hupto : Upto (diffSchemas desired current defaults) pre
      (.addColumn t c addDefault)) :
    (MigrationOp.addColumn t c addDefault).Allowed (current.catalog.run pre) := by
  rcases addColumn_mem_buildup.mp (mem_buildup hupto.mem rfl) with
    ⟨htable, hc, hnew, hdefault⟩
  have hshared := mem_sharedNames.mp htable
  refine ⟨hupto.table_there (by simp) hshared.1, ?_⟩
  intro hthere
  rcases hupto.hasColumn_iff.mp hthere with ⟨hold, _⟩ | ⟨a, ha, c', hadds, htable', hname⟩
  · exact hnew (hcurrent.catalog_hasColumn.mp hold)
  · have hplan := mem_buildup (hupto.before a ha).1
    cases a with
    | createTable t' =>
        rcases createTable_mem_buildup.mp (hplan rfl) with ⟨n, hn, rfl⟩
        rcases List.mem_map.mp hadds with ⟨x, _, rfl⟩
        have hsame : n = t := (SchemaIR.table_name desired n).symm.trans htable'
        exact (mem_createNames.mp hn).2 (hsame ▸ hshared.2)
    | addColumn t' x addDefault' =>
        rcases addColumn_mem_buildup.mp (hplan rfl) with ⟨_, hx, _, hdefault'⟩
        have hc' : c' = ⟨t', x⟩ := by simpa [columnEdits] using hadds
        subst hc'
        dsimp only at htable' hname
        subst htable'
        have hsame := hdesired.unambiguous.columns t' x hx c hc hname
        subst hsame
        exact (hupto.before _ ha).2.ne (by rw [hdefault, hdefault'])
    | _ => simp [columnEdits] at hadds

theorem allowed_createIndex {t : String} {i : IndexIR}
    (hupto : Upto (diffSchemas desired current defaults) pre (.createIndex t i)) :
    (MigrationOp.createIndex t i).Allowed (current.catalog.run pre) := by
  rcases createIndex_mem_buildup.mp (mem_buildup hupto.mem rfl) with
    ⟨htable, hi, hchanged⟩
  refine ⟨hupto.table_there (by simp) htable, ?_, ?_⟩
  · rintro ⟨r, hr, hname⟩
    rcases hupto.live_index hcurrent (by simp) hr with ⟨hlive, horigin⟩
    rcases hdesired.indexes_inj hlive hi hname with ⟨htable', hitem⟩
    rcases horigin with hold | hadded
    · apply hchanged
      rw [htable', hitem] at hold
      exact (hcurrent.unambiguous.indexes t).byName hold
    · rw [htable', hitem] at hadded
      exact (hupto.before _ hadded).2.ne rfl
  · intro c hc
    exact hupto.column_there hcurrent (by simp) (hdesired.index_column hi hc)

theorem allowed_addForeignKey {t : String} {fk : ForeignKeyIR}
    (hupto : Upto (diffSchemas desired current defaults) pre (.addForeignKey t fk)) :
    (MigrationOp.addForeignKey t fk).Allowed (current.catalog.run pre) := by
  rcases addForeignKey_mem_buildup.mp (mem_buildup hupto.mem rfl) with
    ⟨htable, hfk, hchanged⟩
  have hreference := hdesired.reference hfk
  refine ⟨hupto.table_there (by simp) htable, ?_, ?_, ?_,
    hupto.table_there (by simp) hreference.1, ?_⟩
  · rintro ⟨r, hr, rfl, hname⟩
    rcases hupto.live_foreignKey hcurrent (by simp) hr with ⟨hlive, horigin⟩
    have hitem := hdesired.unambiguous.foreignKeys r.table _ hlive fk hfk hname
    rcases horigin with hold | hadded
    · apply hchanged
      rw [hitem] at hold
      exact (hcurrent.unambiguous.foreignKeys r.table).byName hold
    · rw [hitem] at hadded
      exact (hupto.before _ hadded).2.ne rfl
  · rintro ⟨r, hr, rfl, hname⟩
    have hlive := (hupto.live_check hcurrent (by simp) hr).1
    exact hdesired.foreignKey_ne_check hfk hlive hname.symm
  · intro c hc
    exact hupto.column_there hcurrent (by simp) (hdesired.foreignKey_column hfk hc)
  · intro c hc
    exact hupto.column_there hcurrent (by simp) (hreference.2 c hc)

theorem allowed_addCheck {t : String} {c : CheckIR}
    (hupto : Upto (diffSchemas desired current defaults) pre (.addCheck t c)) :
    (MigrationOp.addCheck t c).Allowed (current.catalog.run pre) := by
  rcases addCheck_mem_buildup.mp (mem_buildup hupto.mem rfl) with
    ⟨htable, hc, hchanged⟩
  refine ⟨hupto.table_there (by simp) htable, ?_, ?_⟩
  · rintro ⟨r, hr, rfl, hname⟩
    have hlive := (hupto.live_foreignKey hcurrent (by simp) hr).1
    exact hdesired.foreignKey_ne_check hlive hc hname
  · rintro ⟨r, hr, rfl, hname⟩
    rcases hupto.live_check hcurrent (by simp) hr with ⟨hlive, horigin⟩
    have hitem := hdesired.unambiguous.checks r.table _ hlive c hc hname
    rcases horigin with hold | hadded
    · apply hchanged
      rw [hitem] at hold
      exact (hcurrent.unambiguous.checks r.table).byName hold
    · rw [hitem] at hadded
      exact (hupto.before _ hadded).2.ne rfl

theorem allowed (hupto : Upto (diffSchemas desired current defaults) pre op) :
    op.Allowed (current.catalog.run pre) := by
  cases op with
  | createTable t => exact allowed_createTable hupto
  | dropTable n => exact allowed_dropTable hcurrent hdesired hupto
  | addColumn t c d => exact allowed_addColumn hcurrent hdesired hupto
  | dropColumnDefault t n => exact allowed_dropColumnDefault hupto
  | dropColumn t n => exact allowed_dropColumn hcurrent hdesired hupto
  | alterColumnType t n fromType toType => exact allowed_alterColumnType hcurrent hupto
  | alterColumnNullability t n b =>
      exact allowed_alterColumnNullability hcurrent hupto
  | addForeignKey t fk => exact allowed_addForeignKey hcurrent hdesired hupto
  | dropForeignKey t n => exact allowed_dropForeignKey hcurrent hupto
  | createIndex t i => exact allowed_createIndex hcurrent hdesired hupto
  | dropIndex n => exact allowed_dropIndex hcurrent hupto
  | createSequence s => exact allowed_createSequence hupto
  | dropSequence n => exact allowed_dropSequence hupto
  | addCheck t c => exact allowed_addCheck hcurrent hdesired hupto
  | dropCheck t n => exact allowed_dropCheck hcurrent hupto

end Guards

end Upto

theorem execute_diffSchemas {desired current : SchemaIR} (defaults : ColumnAddDefaults)
    (hdesired : desired.WellFormed) (hcurrent : current.WellFormed) :
    execute (diffSchemas desired current defaults) current.catalog =
      some (current.catalog.run (diffSchemas desired current defaults)) := by
  apply execute_of_allowed
  intro pre op post hsplit
  exact Upto.allowed hcurrent hdesired (upto_of_split hdesired hcurrent hsplit)

end Untangled.Schema
