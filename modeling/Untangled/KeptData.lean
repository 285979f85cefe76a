import Untangled.Migrate

/-!
# What a statement keeps

`Keeps` relates two states of the database: the later one still has every table,
column, row and value of the earlier one, except for rows of the system user, and
a required column that came in between holds a declared default in the old rows.
Every statement that a plan without destructive operations leads to keeps the
data in this sense.
-/

namespace Untangled.Schema

open Mapping

variable {V : Type}

/-- The rows that `upsert_system_user` writes or deletes. -/
def SystemUserRow (S : Server V) (t : String) (r : Row V) : Prop :=
  (t = "user" ∧ ∃ typeName v, S.value typeName (.str systemUserId) = some v ∧
    r "id" = some v) ∨
  (t = "user_role" ∧ ∃ v, S.value "uuid" (.str systemUserId) = some v ∧
    r "user_id" = some v)

/-- A value of a column that is a declared default of it, by table, column and
type. -/
abbrev Declares (V : Type) := String → String → String → Option V → Prop

/-- A row has what it had; in columns that were not there before it may hold a
declared default, or nothing. -/
def Grown (declares : Declares V) (before : Catalog) (t : String) (old new : Row V) :
    Prop :=
  ∀ n, new n = old n ∨ (¬before.HasColumn t n ∧
    (new n = none ∨ ∃ typeName, declares t n typeName (new n)))

/-- The required columns of a table that were not there before hold a declared
default. -/
def Filled (declares : Declares V) (before after : Catalog) (t : String) (r : Row V) :
    Prop :=
  ∀ c ∈ after.columns, c.table = t → c.item.nullable = false →
    ¬before.HasColumn t c.item.name → declares t c.item.name c.item.typeName (r c.item.name)

/-- Nothing of the catalog is lost, and no old column becomes required. -/
structure Catalog.Keeps (before after : Catalog) : Prop where
  tables : ∀ n, before.HasTable n → after.HasTable n
  columns : ∀ c ∈ before.columns, ∃ c' ∈ after.columns, c'.table = c.table ∧
    c'.item.name = c.item.name ∧ c'.item.typeName = c.item.typeName
  required : ∀ c' ∈ after.columns, before.HasTable c'.table → c'.item.nullable = false →
    ¬before.HasColumn c'.table c'.item.name ∨ ∃ c ∈ before.columns, c.table = c'.table ∧
      c.item.name = c'.item.name ∧ c.item.typeName = c'.item.typeName ∧
        c.item.nullable = false

structure Keeps (S : Server V) (declares : Declares V) (before after : Database V) :
    Prop extends before.catalog.Keeps after.catalog where
  rows : ∀ r ∈ before.rows, before.catalog.HasTable r.table →
    r.table ∉ bootstrapTableNames → ∃ values : Row V,
      Grown declares before.catalog r.table r.values values ∧
        (SystemUserRow S r.table values ∨ (⟨r.key, r.table, values⟩ ∈ after.rows ∧
          Filled declares before.catalog after.catalog r.table values))

section Grown

variable {declares : Declares V} {before mid : Catalog} {t : String}
  {old new newer : Row V}

theorem Grown.same (h : Grown declares before t old new) {n : String}
    (hn : before.HasColumn t n) : new n = old n := by
  rcases h n with hsame | ⟨hnew, _⟩
  · exact hsame
  · exact absurd hn hnew

theorem Grown.refl (r : Row V) : Grown declares before t r r := fun _ => Or.inl rfl

theorem Grown.trans (hkeeps : ∀ n, before.HasColumn t n → mid.HasColumn t n)
    (h : Grown declares before t old new) (h' : Grown declares mid t new newer) :
    Grown declares before t old newer := by
  intro n
  rcases h' n with hsame | ⟨hnew, hvalue⟩
  · rw [hsame]
    exact h n
  · exact Or.inr ⟨fun hn => hnew (hkeeps n hn), hvalue⟩

end Grown

namespace Catalog.Keeps

variable {before mid after : Catalog}

theorem hasColumn (h : before.Keeps after) {t n : String} (hcolumn : before.HasColumn t n) :
    after.HasColumn t n := by
  rcases hcolumn with ⟨c, hc, rfl, rfl⟩
  rcases h.columns c hc with ⟨c', hc', htable, hname, _⟩
  exact ⟨c', hc', htable, hname⟩

theorem trans (h : before.Keeps mid) (h' : mid.Keeps after) : before.Keeps after where
  tables n hn := h'.tables n (h.tables n hn)
  columns := by
    intro c hc
    rcases h.columns c hc with ⟨c₁, hc₁, htable, hname, htype⟩
    rcases h'.columns c₁ hc₁ with ⟨c₂, hc₂, htable', hname', htype'⟩
    exact ⟨c₂, hc₂, htable'.trans htable, hname'.trans hname, htype'.trans htype⟩
  required := by
    intro c' hc' htable hrequired
    rcases h'.required c' hc' (h.tables _ htable) hrequired with hnew | ⟨c, hc, ht, hn, hty, hnull⟩
    · exact Or.inl fun hold => hnew (h.hasColumn hold)
    · rcases h.required c hc (ht ▸ htable) hnull with hnew | ⟨c₀, hc₀, ht₀, hn₀, hty₀, hnull₀⟩
      · rw [ht, hn] at hnew
        exact Or.inl hnew
      · exact Or.inr ⟨c₀, hc₀, ht₀.trans ht, hn₀.trans hn, hty₀.trans hty, hnull₀⟩

/-- Tables may come, with columns of their own. -/
theorem of_columns (htables : ∀ n, before.HasTable n → after.HasTable n)
    (hold : ∀ c ∈ before.columns, c ∈ after.columns)
    (hnew : ∀ c ∈ after.columns, c ∈ before.columns ∨ ¬before.HasTable c.table) :
    before.Keeps after where
  tables := htables
  columns c hc := ⟨c, hold c hc, rfl, rfl, rfl⟩
  required := by
    intro c' hc' htable hrequired
    rcases hnew c' hc' with hc | habsent
    · exact Or.inr ⟨c', hc, rfl, rfl, rfl, hrequired⟩
    · exact absurd htable habsent

theorem refl (cat : Catalog) : cat.Keeps cat :=
  of_columns (fun _ h => h) (fun _ h => h) fun _ h => Or.inl h

end Catalog.Keeps

namespace Keeps

variable {S : Server V} {declares : Declares V} {before mid after : Database V}

theorem trans (h : Keeps S declares before mid) (h' : Keeps S declares mid after) :
    Keeps S declares before after where
  toKeeps := h.toKeeps.trans h'.toKeeps
  rows := by
    intro r hr htable hmanaged
    rcases h.rows r hr htable hmanaged with ⟨v₁, hgrown₁, hsystem | ⟨hmid, hfilled⟩⟩
    · exact ⟨v₁, hgrown₁, Or.inl hsystem⟩
    · rcases h'.rows _ hmid (h.tables _ htable) hmanaged with ⟨v₂, hgrown₂, hrest⟩
      refine ⟨v₂, hgrown₁.trans (fun _ hn => h.hasColumn hn) hgrown₂, ?_⟩
      rcases hrest with hsystem | ⟨hafter, hfilled'⟩
      · exact Or.inl hsystem
      · refine Or.inr ⟨hafter, ?_⟩
        intro c hc ht hrequired hnew
        rcases h'.required c hc (ht ▸ h.tables _ htable) hrequired with
          hlate | ⟨c₁, hc₁, ht₁, hn₁, hty₁, hnull₁⟩
        · rw [ht] at hlate
          exact hfilled' c hc ht hrequired hlate
        · -- the column came with the first half and was filled there
          have hdeclared := hfilled c₁ hc₁ (ht₁.trans ht) hnull₁ (by rwa [hn₁])
          have hthere : mid.catalog.HasColumn r.table c.item.name :=
            ⟨c₁, hc₁, ht₁.trans ht, hn₁⟩
          rw [hgrown₂.same hthere, ← hn₁, ← hty₁]
          exact hdeclared

/-- The catalog gains no required column of an old table, and the rows stay. -/
theorem of_rows
    (hcatalog : before.catalog.Keeps after.catalog)
    (hcolumns : ∀ c ∈ after.catalog.columns, before.catalog.HasTable c.table →
      c.item.nullable = false → before.catalog.HasColumn c.table c.item.name)
    (hrows : ∀ r ∈ before.rows, r.table ∉ bootstrapTableNames →
      r ∈ after.rows ∨ SystemUserRow S r.table r.values) :
    Keeps S declares before after where
  toKeeps := hcatalog
  rows := by
    intro r hr htable hmanaged
    refine ⟨r.values, Grown.refl _, ?_⟩
    rcases hrows r hr hmanaged with hkept | hsystem
    · refine Or.inr ⟨hkept, ?_⟩
      intro c hc ht hrequired hnew
      rw [← ht] at htable hnew
      exact absurd (hcolumns c hc htable hrequired) hnew
    · exact Or.inl hsystem

/-- Tables may come; rows of the system user may change. -/
theorem of_new_tables
    (htables : ∀ n, before.catalog.HasTable n → after.catalog.HasTable n)
    (hold : ∀ c ∈ before.catalog.columns, c ∈ after.catalog.columns)
    (hnew : ∀ c ∈ after.catalog.columns,
      c ∈ before.catalog.columns ∨ ¬before.catalog.HasTable c.table)
    (hrows : ∀ r ∈ before.rows, r.table ∉ bootstrapTableNames →
      r ∈ after.rows ∨ SystemUserRow S r.table r.values) :
    Keeps S declares before after := by
  apply of_rows (Catalog.Keeps.of_columns htables hold hnew) _ hrows
  intro c hc htable _
  rcases hnew c hc with hc | habsent
  · exact ⟨c, hc, rfl, rfl⟩
  · exact absurd htable habsent

theorem of_same_catalog (hcatalog : after.catalog = before.catalog)
    (hrows : ∀ r ∈ before.rows, r.table ∉ bootstrapTableNames →
      r ∈ after.rows ∨ SystemUserRow S r.table r.values) :
    Keeps S declares before after := by
  apply of_new_tables _ _ _ hrows
  · intro n hn
    rwa [hcatalog]
  · intro c hc
    rwa [hcatalog]
  · intro c hc
    rw [hcatalog] at hc
    exact Or.inl hc

theorem refl (db : Database V) : Keeps S declares db db :=
  of_same_catalog rfl fun _ hr _ => Or.inl hr

end Keeps

/-! ## Operations of a plan -/

section Operations

variable {S : Server V} {declares : Declares V} {db db' : Database V}

theorem executeStored_eq_some {op : MigrationOp} :
    op.executeStored S db = some db' ↔ op.Performable db.catalog ∧
      ∃ changed, op.changeRows S db = some changed ∧
        db' = { changed with catalog := db.catalog.run [op] } := by
  unfold MigrationOp.executeStored
  by_cases hperformable : op.Performable db.catalog
  · rw [if_pos hperformable, Option.map_eq_some_iff]
    simp only [hperformable, true_and, eq_comm (a := db')]
  · simp [hperformable]

theorem hasTable_run {cat : Catalog} {op : MigrationOp} {n : String}
    (hdrop : op ≠ .dropTable n) (h : cat.HasTable n) : (cat.run [op]).HasTable n := by
  rcases h with ⟨e, he, rfl⟩
  refine ⟨e, ?_, rfl⟩
  rw [Catalog.run_tables, Editing.run_cons, Editing.run_nil, Editing.mem_step]
  refine Or.inl ⟨e, he, ?_, rfl⟩
  cases op <;> simp [tableEdits, Editing.plain]
  intro heq
  exact hdrop (by rw [heq])

/-- The operation is none that changes tables or columns. -/
def MigrationOp.leavesColumns : MigrationOp → Bool
  | .createTable _ | .dropTable _ | .addColumn _ _ _ | .dropColumn _ _
  | .alterColumnType _ _ _ _ | .alterColumnNullability _ _ _ => false
  | _ => true

theorem run_leavesColumns {cat : Catalog} {ops : MigrationPlan}
    (h : ∀ op ∈ ops, op.leavesColumns = true) :
    (cat.run ops).tables = cat.tables ∧ (cat.run ops).columns = cat.columns := by
  have hidle : ∀ op ∈ ops, tableEdits.Idle op ∧ columnEdits.Idle op := by
    intro op hop
    have hleaves := h op hop
    cases op <;> first
      | exact absurd hleaves Bool.false_ne_true
      | exact ⟨⟨fun _ => rfl, fun _ => rfl, rfl⟩, ⟨fun _ => rfl, fun _ => rfl, rfl⟩⟩
  exact ⟨Editing.run_idle fun op hop => (hidle op hop).1,
    Editing.run_idle fun op hop => (hidle op hop).2⟩

theorem changeRows_leavesColumns {op : MigrationOp} (h : op.leavesColumns = true)
    (hchange : op.changeRows S db = some db') : db'.rows = db.rows := by
  cases op <;> first
    | exact absurd h Bool.false_ne_true
    | (cases hchange; rfl)

/-- A column that comes with a default, or to a table without rows. -/
theorem addColumn_keeps {t : String} {c : ColumnIR} {d : Option AddDefaultValue}
    (hdeclared : ∀ v, d.bind (S.value c.typeName) = some v →
      declares t c.name c.typeName (some v))
    (h : (MigrationOp.addColumn t c d).executeStored S db = some db') :
    Keeps S declares db db' := by
  rcases executeStored_eq_some.mp h with ⟨hperformable, changed, hchange, rfl⟩
  have hnew : ¬db.catalog.HasColumn t c.name := hperformable.2
  have hcolumns : ∀ r, r ∈ (db.catalog.run [.addColumn t c d]).columns ↔
      r ∈ db.catalog.columns ∨ r = ⟨t, c⟩ := by
    intro r
    rw [Catalog.run_columns, Editing.run_cons, Editing.run_nil, Editing.mem_step]
    simp [columnEdits]
  have hcatalog : db.catalog.Keeps (db.catalog.run [.addColumn t c d]) := by
    refine ⟨fun n hn => hasTable_run (by simp) hn, ?_, ?_⟩
    · intro c' hc'
      exact ⟨c', (hcolumns c').mpr (Or.inl hc'), rfl, rfl, rfl⟩
    · intro c' hc' _ hrequired
      rcases (hcolumns c').mp hc' with hold | rfl
      · exact Or.inr ⟨c', hold, rfl, rfl, rfl, hrequired⟩
      · exact Or.inl hnew
  -- the rows of the table hold `v`, which a required column takes from its default
  have hfill : ∃ v : Option V, changed.rows = (db.mapRows t fun r => r.set c.name v).rows ∧
      (v = none ∨ declares t c.name c.typeName v) ∧
      (c.nullable = false → db.rowsOf t ≠ [] → declares t c.name c.typeName v) := by
    cases d with
    | none =>
        simp only [MigrationOp.changeRows, Option.ite_none_left_eq_some] at hchange
        rcases hchange with ⟨hallowed, heq⟩
        cases heq
        exact ⟨none, rfl, Or.inl rfl,
          fun hnull hrows => absurd ⟨hnull, hrows⟩ hallowed⟩
    | some d =>
        simp only [MigrationOp.changeRows, Option.map_eq_some_iff] at hchange
        rcases hchange with ⟨v, hv, rfl⟩
        exact ⟨some v, rfl, Or.inr (hdeclared v hv), fun _ _ => hdeclared v hv⟩
  rcases hfill with ⟨v, hrows, hnone, hvalue⟩
  refine ⟨hcatalog, ?_⟩
  intro r hr htable _
  have hmem : (if r.table = t then { r with values := r.values.set c.name v } else r) ∈
      changed.rows := by
    rw [hrows]
    exact List.mem_map.mpr ⟨r, hr, rfl⟩
  by_cases hthere : r.table = t
  · rw [if_pos hthere] at hmem
    refine ⟨r.values.set c.name v, ?_, Or.inr ⟨hmem, ?_⟩⟩
    · intro n
      by_cases hname : n = c.name
      · right
        rw [Row.set, if_pos hname, hthere, hname]
        exact ⟨hnew, hnone.imp_right fun hdeclared => ⟨_, hdeclared⟩⟩
      · left
        rw [Row.set, if_neg hname]
    · intro c' hc' ht hrequired habsent
      rcases (hcolumns c').mp hc' with hold | rfl
      · exact absurd ⟨c', hold, ht, rfl⟩ habsent
      · have hin : r ∈ db.rowsOf t := List.mem_filter.mpr ⟨hr, by simpa using hthere⟩
        rw [hthere, Row.set, if_pos rfl]
        exact hvalue hrequired (List.ne_nil_of_mem hin)
  · rw [if_neg hthere] at hmem
    refine ⟨r.values, Grown.refl _, Or.inr ⟨hmem, ?_⟩⟩
    intro c' hc' ht _ habsent
    rcases (hcolumns c').mp hc' with hold | rfl
    · exact absurd ⟨c', hold, ht, rfl⟩ habsent
    · exact absurd ht.symm hthere

theorem createTable_keeps {t : TableIR}
    (h : (MigrationOp.createTable t).executeStored S db = some db') :
    Keeps S declares db db' := by
  rcases executeStored_eq_some.mp h with ⟨hperformable, changed, hchange, rfl⟩
  cases hchange
  have hcolumns : ∀ r, r ∈ (db.catalog.run [.createTable t]).columns ↔
      r ∈ db.catalog.columns ∨ r ∈ t.columns.map (Owned.mk t.name) := by
    intro r
    rw [Catalog.run_columns, Editing.run_cons, Editing.run_nil, Editing.mem_step]
    simp [columnEdits]
  apply Keeps.of_new_tables
  · exact fun n hn => hasTable_run (by simp) hn
  · exact fun c hc => (hcolumns c).mpr (Or.inl hc)
  · intro c hc
    rcases (hcolumns c).mp hc with hold | hnew
    · exact Or.inl hold
    · rcases List.mem_map.mp hnew with ⟨_, _, rfl⟩
      exact Or.inr hperformable
  · exact fun _ hr _ => Or.inl hr

/-- A column may become nullable. -/
theorem loosen_keeps {t n : String}
    (h : (MigrationOp.alterColumnNullability t n true).executeStored S db = some db') :
    Keeps S declares db db' := by
  rcases executeStored_eq_some.mp h with ⟨_, changed, hchange, rfl⟩
  cases hchange
  let op := MigrationOp.alterColumnNullability t n true
  have hcolumns : ∀ r, r ∈ (db.catalog.run [op]).columns ↔
      ∃ old ∈ db.catalog.columns, columnEdits.alters op old = r := by
    intro r
    rw [Catalog.run_columns, Editing.run_cons, Editing.run_nil, Editing.mem_step]
    simp [op, columnEdits]
  -- name and type of a column stay, and one that is required was required
  have halters : ∀ r, (columnEdits.alters op r).table = r.table ∧
      (columnEdits.alters op r).item.name = r.item.name ∧
      (columnEdits.alters op r).item.typeName = r.item.typeName ∧
      ((columnEdits.alters op r).item.nullable = false → r.item.nullable = false) := by
    intro r
    by_cases hkey : r.table = t ∧ r.item.name = n
    · simp [op, columnEdits, hkey]
    · simp [op, columnEdits, hkey]
  have hcatalog : db.catalog.Keeps (db.catalog.run [op]) := by
    refine ⟨fun n hn => hasTable_run (by simp [op]) hn, ?_, ?_⟩
    · intro c hc
      have hc' := halters c
      exact ⟨_, (hcolumns _).mpr ⟨c, hc, rfl⟩, hc'.1, hc'.2.1, hc'.2.2.1⟩
    · intro c' hc' _ hrequired
      rcases (hcolumns c').mp hc' with ⟨c, hc, rfl⟩
      have hold := halters c
      exact Or.inr ⟨c, hc, hold.1.symm, hold.2.1.symm, hold.2.2.1.symm,
        hold.2.2.2 hrequired⟩
  apply Keeps.of_rows hcatalog
  · intro c' hc' htable hrequired
    rcases hcatalog.required c' hc' htable hrequired with hnew | ⟨c, hc, ht, hn, _, _⟩
    · rcases (hcolumns c').mp hc' with ⟨c, hc, rfl⟩
      exact absurd ⟨c, hc, (halters c).1.symm, (halters c).2.1.symm⟩ hnew
    · exact ⟨c, hc, ht, hn⟩
  · exact fun _ hr _ => Or.inl hr

theorem executeStored_keeps {op : MigrationOp} (hop : op.destructive = false)
    (hdeclared : ∀ t c d v, op = .addColumn t c (some d) →
      S.value c.typeName d = some v → declares t c.name c.typeName (some v))
    (h : op.executeStored S db = some db') : Keeps S declares db db' := by
  by_cases hleaves : op.leavesColumns = true
  · rcases executeStored_eq_some.mp h with ⟨_, changed, hchange, rfl⟩
    have hrows := changeRows_leavesColumns hleaves hchange
    have hsame := @run_leavesColumns db.catalog [op] (by simpa using hleaves)
    apply Keeps.of_new_tables
    · intro n hn
      rwa [Catalog.HasTable, hsame.1]
    · intro c hc
      rwa [hsame.2]
    · intro c hc
      rw [hsame.2] at hc
      exact Or.inl hc
    · intro r hr _
      rw [← hrows] at hr
      exact Or.inl hr
  · cases op with
    | createTable t => exact createTable_keeps h
    | addColumn t c d =>
        apply addColumn_keeps _ h
        intro v hv
        cases d with
        | none => cases hv
        | some d => exact hdeclared t c d v rfl hv
    | alterColumnNullability t n nullable =>
        cases nullable with
        | true => exact loosen_keeps h
        | false => cases hop
    | dropTable n => cases hop
    | dropColumn t n => cases hop
    | alterColumnType t n fromType toType => cases hop
    | _ => exact absurd rfl hleaves

end Operations

end Untangled.Schema
