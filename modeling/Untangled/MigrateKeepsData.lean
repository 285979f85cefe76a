import Untangled.KeptData

/-!
# A gated migration loses no data

Without `allow_destructive` a migration raises and leaves the database as it was, or
commits a plan without destructive operations after which every table, column,
row and value is still there.  Texts of checks must be expressions: they go into
the statement as they are, and what else they contain is executed.
-/

namespace Untangled.Schema

open Mapping TransactionPrograms TransactionPrograms.Action

variable {V : Type} {S : Server V} {declares : Declares V} {db db' : Database V}

/-! ## Statements on rows -/

section Rows

theorem append_keeps (t : String) (row : Row V) : Keeps S declares db (db.append t row) :=
  Keeps.of_same_catalog rfl fun _ hr _ => Or.inl (List.mem_append_left _ hr)

theorem insert_keeps {t : String} {values : List (String × AddDefaultValue)}
    (h : db.insert S t values = some db') : Keeps S declares db db' := by
  unfold Database.insert at h
  rw [Option.ite_none_right_eq_some, Option.map_eq_some_iff] at h
  rcases h with ⟨_, row, _, rfl⟩
  exact append_keeps t row

/-- A column of the row holds what the `INSERT` puts there. -/
theorem foldl_cells {t : String} {values : List (String × AddDefaultValue)}
    {columns : List ColumnIR} {start row : Row V}
    (h : columns.foldlM (fun row c => do
      let v ← db.cell S t values c
      if v.isNone ∧ c.nullable = false then none else some (row.set c.name v)) start =
        some row) (n : String) :
    (∃ c ∈ columns, c.name = n ∧ db.cell S t values c = some (row n)) ∨
      (row n = start n ∧ ∀ c ∈ columns, c.name ≠ n) := by
  induction columns generalizing start with
  | nil =>
      cases h
      exact Or.inr ⟨rfl, by simp⟩
  | cons c rest ih =>
      rw [List.foldlM_cons] at h
      rcases Option.bind_eq_some_iff.mp h with ⟨next, hnext, hrest⟩
      rcases Option.bind_eq_some_iff.mp hnext with ⟨v, hv, hset⟩
      rw [Option.ite_none_left_eq_some] at hset
      rcases hset with ⟨_, hset⟩
      cases hset
      rcases ih hrest with ⟨c', hc', hname, hcell⟩ | ⟨hsame, hother⟩
      · exact Or.inl ⟨c', .tail _ hc', hname, hcell⟩
      · by_cases hname : c.name = n
        · left
          refine ⟨c, .head _, hname, ?_⟩
          rw [hsame, Row.set, if_pos hname.symm]
          exact hv
        · right
          refine ⟨?_, ?_⟩
          · rw [hsame, Row.set, if_neg fun heq => hname heq.symm]
          · intro c' hc'
            rcases List.mem_cons.mp hc' with rfl | hc'
            · exact hname
            · exact hother c' hc'

theorem newRow_id {t id : String} {rest : List (String × AddDefaultValue)} {row : Row V}
    (haccepts : db.Accepts t (("id", .str id) :: rest))
    (h : db.newRow S t (("id", .str id) :: rest) = some row) :
    ∃ typeName v, S.value typeName (.str id) = some v ∧ row "id" = some v := by
  rcases haccepts.2 _ (.head _) with ⟨c, hc, ht, hname⟩
  have hcolumn : c.item ∈ db.catalog.columnsOf t :=
    List.mem_map.mpr ⟨c, List.mem_filter.mpr ⟨hc, by simpa using ht⟩, rfl⟩
  rcases foldl_cells h "id" with ⟨c', _, hname', hcell⟩ | ⟨_, hnone⟩
  · unfold Database.cell at hcell
    rw [hname', List.lookup_cons_self] at hcell
    dsimp only at hcell
    rcases Option.map_eq_some_iff.mp hcell with ⟨v, hv, heq⟩
    exact ⟨c'.typeName, v, hv, heq.symm⟩
  · exact absurd hname (hnone _ hcolumn)

variable [DecidableEq V]

/-- An upsert writes to an old row only where that is the row of the system user. -/
theorem insertOnConflict_keeps {t id : String} {rest : List (String × AddDefaultValue)}
    {updates : List String}
    (hupdates : updates = [] ∨ (t = "user" ∧ id = systemUserId))
    (h : db.insertOnConflict S t (("id", .str id) :: rest) updates = some db') :
    Keeps S declares db db' := by
  unfold Database.insertOnConflict at h
  rw [Option.ite_none_right_eq_some, Option.map_eq_some_iff] at h
  rcases h with ⟨haccepts, row, hrow, rfl⟩
  rcases newRow_id haccepts hrow with ⟨typeName, v, hv, hid⟩
  by_cases hconflict : ((db.rowsOf t).any fun r => r.values "id" = row "id") = true
  · rw [if_pos hconflict]
    refine Keeps.of_same_catalog (by rfl) ?_
    intro r hr _
    have hmem : (if r.table = t then
        { r with values := if r.values "id" = row "id" then
            fun n => if n ∈ updates then row n else r.values n
          else r.values }
        else r) ∈ (db.mapRows t fun r =>
          if r "id" = row "id" then fun n => if n ∈ updates then row n else r n
          else r).rows :=
      List.mem_map.mpr ⟨r, hr, rfl⟩
    by_cases hhit : r.table = t ∧ r.values "id" = row "id"
    · rcases hupdates with rfl | ⟨rfl, rfl⟩
      · left
        rw [if_pos hhit.1, if_pos hhit.2] at hmem
        have hsame : (fun n => if n ∈ ([] : List String) then row n else r.values n) =
            r.values := by
          funext n
          exact if_neg List.not_mem_nil
        rwa [hsame] at hmem
      · exact Or.inr (Or.inl ⟨hhit.1, typeName, v, hv, hhit.2.trans hid⟩)
    · left
      by_cases htable : r.table = t
      · have hmiss : r.values "id" ≠ row "id" := fun heq => hhit ⟨htable, heq⟩
        rwa [if_pos htable, if_neg hmiss] at hmem
      · rwa [if_neg htable] at hmem
  · rw [if_neg hconflict]
    exact append_keeps t row

theorem upsertSystemUserRow_keeps {now : String}
    (h : upsertSystemUserRow S now db = some db') : Keeps S declares db db' :=
  insertOnConflict_keeps (Or.inr ⟨rfl, rfl⟩) h

theorem clearSystemUserRoles_keeps (h : clearSystemUserRoles S db = some db') :
    Keeps S declares db db' := by
  rcases Option.bind_eq_some_iff.mp h with ⟨v, hv, hdelete⟩
  unfold Database.deleteWhere at hdelete
  rw [Option.ite_none_right_eq_some] at hdelete
  rcases hdelete with ⟨_, heq⟩
  cases heq
  refine Keeps.of_same_catalog (by rfl) ?_
  intro r hr _
  by_cases hrole : r.table = "user_role" ∧ r.values "user_id" = some v
  · exact Or.inr (Or.inr ⟨hrole.1, v, hv, hrole.2⟩)
  · exact Or.inl (List.mem_filter.mpr ⟨hr, decide_eq_true hrole⟩)

omit [DecidableEq V] in
theorem supersedeVersions_keeps (h : supersedeVersions S db = some db') :
    Keeps S declares db db' := by
  rcases Option.map_eq_some_iff.mp h with ⟨v, _, rfl⟩
  refine Keeps.of_same_catalog (by rfl) ?_
  intro r hr hmanaged
  have hother : r.table ≠ "schema_versions" := by
    rintro heq
    exact hmanaged (by simp [heq, bootstrapTableNames])
  exact Or.inl (List.mem_map.mpr ⟨r, hr, if_neg hother⟩)

omit [DecidableEq V] in
theorem createIfMissing_keeps (t : TableIR) (defaults : List ColumnDefault) :
    Keeps S declares db (db.createIfMissing t defaults) := by
  unfold Database.createIfMissing
  by_cases hthere : db.catalog.HasTable t.name
  · rw [if_pos hthere]
    exact Keeps.refl db
  · rw [if_neg hthere]
    let members := t.foreignKeys.map (MigrationOp.addForeignKey t.name) ++
      t.indexes.map (MigrationOp.createIndex t.name)
    have hleaves : ∀ op ∈ members, op.leavesColumns = true := by
      intro op hop
      rcases List.mem_append.mp hop with hop | hop
      · rcases List.mem_map.mp hop with ⟨_, _, rfl⟩
        rfl
      · rcases List.mem_map.mp hop with ⟨_, _, rfl⟩
        rfl
    have hsame := @run_leavesColumns (db.catalog.run
      [.createTable (tableWithoutFksIndexesOrChecks t)]) members hleaves
    rw [← Catalog.run_append] at hsame
    have hcreated : Keeps S declares db { db with
        catalog := db.catalog.run [.createTable (tableWithoutFksIndexesOrChecks t)] } := by
      apply createTable_keeps (t := tableWithoutFksIndexesOrChecks t)
      exact executeStored_eq_some.mpr ⟨hthere, db, rfl, rfl⟩
    apply hcreated.trans
    apply Keeps.of_new_tables
    · intro n hn
      rcases hn with ⟨e, he, rfl⟩
      refine ⟨e, ?_, rfl⟩
      rw [← hsame.1] at he
      exact he
    · intro c hc
      rw [← hsame.2] at hc
      exact hc
    · intro c hc
      left
      rw [← hsame.2]
      exact hc
    · exact fun _ hr _ => Or.inl hr

end Rows

/-! ## Programs -/

section Programs

/-- Nothing is committed yet, and what the transaction sees has kept the data. -/
def Intact (S : Server V) (declares : Declares V) (start : Database V)
    (s : Session (Database V)) : Prop :=
  s.committed = start ∧ Keeps S declares start s.working

/-- The program neither commits nor loses data. -/
def Careful {α : Type} (S : Server V) (declares : Declares V) (start : Database V)
    (m : Migration V α) : Prop :=
  ∀ faults s, Intact S declares start s →
    m.Ends faults s (fun _ => Intact S declares start) fun s' => s'.committed = start

variable {start : Database V} {α β σ : Type}

theorem careful_pure (a : α) : Careful S declares start (pure a : Migration V α) :=
  fun _ _ h => ends_pure h

/-- A careful program first, then whatever ends as it should. -/
theorem Careful.andThen {m : Migration V β} {k : β → Migration V α}
    {faults : Faults MigrateError} {s : Session (Database V)}
    {Q : α → Session (Database V) → Prop}
    (hm : Careful S declares start m) (h : Intact S declares start s)
    (hk : ∀ b s', Intact S declares start s' →
      (k b).Ends faults s' Q fun s'' => s''.committed = start) :
    (m >>= k).Ends faults s Q fun s' => s'.committed = start :=
  ends_bind ((hm faults s h).imp hk fun _ hE => hE)

theorem careful_bind {m : Migration V β} {k : β → Migration V α}
    (hm : Careful S declares start m) (hk : ∀ b, Careful S declares start (k b)) :
    Careful S declares start (m >>= k) :=
  fun faults _ h => hm.andThen h fun b s' h' => hk b faults s' h'

theorem careful_sql {f : Database V → Option (Database V)}
    (hf : ∀ db db', f db = some db' → Keeps S declares db db') :
    Careful S declares start (sql f) := by
  intro faults s h
  apply ends_statement
  · intro _ d hd
    cases hresult : f s.working with
    | none =>
        rw [hresult] at hd
        cases hd
    | some db' =>
        rw [hresult] at hd
        cases hd
        exact ⟨h.1, h.2.trans (hf _ _ hresult)⟩
  · exact h.1

theorem careful_query {f : Database V → Except MigrateError α} :
    Careful S declares start (query f) :=
  fun _ _ h => ends_query (fun _ _ => h) h.1

theorem careful_select (f : Database V → α) : Careful S declares start (select f) :=
  careful_query

theorem careful_forEach {body : σ → β → Migration V σ} {state : σ} {items : List β}
    (hbody : ∀ state, ∀ b ∈ items, Careful S declares start (body state b)) :
    Careful S declares start (forEach body state items) := by
  intro faults s h
  have hloop := @ends_forEach _ _ _ _ faults s (fun s' => s'.committed = start) body
    (fun _ rest s' => (∀ b ∈ rest, b ∈ items) ∧ Intact S declares start s') state items
    ⟨fun _ hb => hb, h⟩
    (by
      intro state b rest s' hI
      have hb := hbody state b (hI.1 b (.head _)) faults s' hI.2
      exact hb.imp (fun _ _ h' => ⟨fun b' hb' => hI.1 b' (.tail _ hb'), h'⟩) fun _ hE => hE)
  exact hloop.imp (fun _ _ h' => h'.2) fun _ hE => hE

theorem ensureBootstrapTables_careful :
    Careful S declares start (ensureBootstrapTables : Migration V Unit) := by
  have hcreate : ∀ (t : TableIR) (defaults : List ColumnDefault), ∀ db db' : Database V,
      some (db.createIfMissing t defaults) = some db' → Keeps S declares db db' := by
    intro t defaults db db' h
    cases h
    exact createIfMissing_keeps t defaults
  exact careful_bind (careful_sql (hcreate _ _)) fun _ => careful_sql (hcreate _ _)

theorem recordSchemaVersion_careful (env : Surroundings) (versionId : ℤ)
    (desired : SchemaIR) (restorePointName : String) :
    Careful S declares start
      (recordSchemaVersion S env versionId desired restorePointName) := by
  have hinsert : ∀ (t : String) (values : List (String × AddDefaultValue)),
      Careful S declares start (sql (Database.insert S t values)) :=
    fun _ _ => careful_sql fun _ _ h => insert_keeps h
  apply careful_bind (careful_sql fun _ _ h => supersedeVersions_keeps h)
  intro _
  apply careful_bind (hinsert _ _)
  intro _
  apply careful_bind
  · apply careful_forEach
    intro _ _ _
    exact careful_bind (hinsert _ _) fun _ => careful_pure _
  · exact fun _ => careful_pure _

theorem careful_ifRelation {t : String} {m : Migration V Unit}
    (hm : Careful S declares start m) : Careful S declares start (ifRelation t m) := by
  apply careful_bind (careful_select _)
  intro found
  cases found with
  | true => exact hm
  | false => exact careful_pure _

variable [DecidableEq V]

theorem upsertSystemUser_careful (env : Surroundings) :
    Careful S declares start (upsertSystemUser S env) := by
  apply careful_ifRelation
  apply careful_bind (careful_sql fun _ _ h => upsertSystemUserRow_keeps h)
  intro _
  have hemit : Careful S declares start (emitFailClosed : Migration V Unit)  :=
    careful_select _
  exact careful_ifRelation (careful_bind hemit fun _ =>
    careful_sql fun _ _ h => clearSystemUserRoles_keeps h)

theorem ensureRows_careful (env : Surroundings) :
    Careful S declares start (ensureRows S env) := by
  apply careful_bind (upsertSystemUser_careful env)
  intro _
  apply careful_bind
  · exact careful_ifRelation
      (careful_sql fun _ _ h => insertOnConflict_keeps (Or.inl rfl) h)
  · exact fun _ => careful_ifRelation
      (careful_sql fun _ _ h => insertOnConflict_keeps (Or.inl rfl) h)

end Programs

/-! ## The plan -/

section Plan

theorem mapError_eq_ok {ε ε' α : Type} {x : Except ε α} {f : ε → ε'} {a : α} :
    x.mapError f = .ok a ↔ x = .ok a := by
  cases x with
  | ok b => simp [Except.mapError]
  | error e => simp [Except.mapError]

variable {desired current : SchemaIR} {defaults : ColumnAddDefaults}

theorem mem_buildup_of_mem {op : MigrationOp}
    (hop : op ∈ diffSchemas desired current defaults) (hbuilds : op.takesDown = false) :
    op ∈ buildup desired current defaults := by
  rw [diffSchemas_eq] at hop
  rcases List.mem_append.mp hop with hdown | hup
  · rw [takesDown_of_mem_teardown hdown] at hbuilds
    cases hbuilds
  · exact hup

/-- The value is that of a `create_default` declared for the column. -/
def declared (S : Server V) (env : Surroundings)
    (directory : Option (List DefinitionFile)) : Declares V := fun t c typeName v =>
  ∃ definitions, loadDefinitions env.scalars directory = .ok definitions ∧
    ∃ e ∈ declaredDefaults definitions, identifier e.table = t ∧ identifier e.column = c ∧
      ∃ d, substituteDefault env e.value = .ok d ∧ ∃ x, S.value typeName d = some x ∧
        v = some x

theorem requiredCreateDefaults_spec {env : Surroundings}
    {definitions : List ClassDefinition}
    (h : requiredCreateDefaults env definitions = .ok defaults) {t c : String}
    {d : AddDefaultValue} (hd : defaults t c = some d) :
    ∃ e ∈ declaredDefaults definitions, e.table = t ∧ e.column = c ∧
      substituteDefault env e.value = .ok d := by
  rcases bind_eq_ok.mp h with ⟨resolved, hresolved, hdefaults⟩
  cases hdefaults
  rcases Option.map_eq_some_iff.mp hd with ⟨r, hfind, rfl⟩
  have hmem := List.mem_reverse.mp (List.mem_of_find?_eq_some hfind)
  have hkey := List.find?_some hfind
  simp only [decide_eq_true_eq] at hkey
  rcases exists_of_mem_forall₂ (mapM_ok_forall₂ hresolved) hmem with ⟨e, he, heq⟩
  rcases bind_eq_ok.mp heq with ⟨value, hvalue, hr⟩
  cases hr
  exact ⟨e, he, hkey.1, hkey.2, hvalue⟩

/-- Every check of the schema is the text of one of the definitions. -/
theorem check_of_definition {R : PythonText.CharRules} {definitions : List ClassDefinition}
    (h : desiredSchemaFromClasses R definitions = .ok desired) {t : String} {c : CheckIR}
    (hc : c ∈ (desired.table t).checks) :
    ∃ d ∈ definitions, ∃ text ∈ d.checkConstraints,
      c.expression = normalizeCheckExpression text := by
  have hof := desiredSchemaFromClasses_spec h
  have htable := @SchemaIR.mem_namesOf_tables _ TableIR.checks _ _ _ (fun _ => rfl) hc
  rcases exists_of_mem_forall₂ hof.tables (SchemaIR.table_mem htable) with ⟨d, hd, hd_of⟩
  rw [hd_of.checks, tableChecks] at hc
  rcases List.mem_map.mp hc with ⟨⟨text, i⟩, hmem, rfl⟩
  exact ⟨d, hd, text, List.fst_mem_of_mem_zipIdx hmem, rfl⟩

theorem resolveSequenceStarts_tables {live : LiveData} {resolved : SchemaIR}
    (h : resolveSequenceStarts live desired = .ok resolved) :
    resolved.tables = desired.tables := by
  rcases bind_eq_ok.mp h with ⟨_, _, heq⟩
  cases heq
  rfl

end Plan

/-! ## Migrations -/

section Migrations

/-- A new column takes its default from a declaration, and a new check is an
expression. -/
structure SafeOp (S : Server V) (env : Surroundings)
    (directory : Option (List DefinitionFile)) (op : MigrationOp) : Prop where
  default : ∀ t c d v, op = .addColumn t c (some d) → S.value c.typeName d = some v →
    declared S env directory (identifier t) (identifier c.name) c.typeName (some v)
  expression : ∀ t c, op = .addCheck t c → S.isExpression c.expression = true

/-- The texts of the checks are expressions that change nothing. -/
def ChecksAreExpressions (S : Server V) (env : Surroundings)
    (directory : Option (List DefinitionFile)) : Prop :=
  ∀ definitions, loadDefinitions env.scalars directory = .ok definitions →
    ∀ d ∈ definitions, ∀ text ∈ d.checkConstraints,
      S.isExpression (normalizeCheckExpression text) = true

variable {env : Surroundings} {directory : Option (List DefinitionFile)}
  {faults : Faults MigrateError} {start : Database V} {s : Session (Database V)}

theorem stored_destructive (op : MigrationOp) : op.stored.destructive = op.destructive := by
  cases op <;> rfl

theorem execute_keeps {op : MigrationOp} (hop : op.destructive = false)
    (hsafe : SafeOp S env directory op) (h : op.execute S db = some db') :
    Keeps S (declared S env directory) db db' := by
  have hstored : op.stored.executeStored S db = some db' := by
    cases op with
    | addCheck t c =>
        rw [MigrationOp.execute] at h
        rwa [if_pos (hsafe.expression t c rfl)] at h
    | _ => exact h
  apply executeStored_keeps _ _ hstored
  · rw [stored_destructive, hop]
  · intro t c d v heq hv
    cases op with
    | addColumn t₀ c₀ d₀ =>
        cases heq
        exact hsafe.default t₀ c₀ d v rfl hv
    | _ => cases heq

theorem computePlan_ends (hchecks : ChecksAreExpressions S env directory)
    (h : Intact S (declared S env directory) start s) :
    (computePlan S env directory).Ends faults s
      (fun planned s' => Intact S (declared S env directory) start s' ∧
        ∀ op ∈ planned.plan, SafeOp S env directory op)
      fun s' => s'.committed = start := by
  unfold computePlan
  apply ends_bind
  apply ends_lift _ h.1
  intro definitions hdefinitions
  apply ends_bind
  apply ends_lift _ h.1
  intro desired hdesired
  apply ensureBootstrapTables_careful.andThen h
  intro _ s₁ h₁
  apply ends_bind
  apply ends_query _ h₁.1
  intro current _
  apply ends_bind
  apply ends_query _ h₁.1
  intro resolved hresolved
  apply ends_bind
  apply ends_lift _ h₁.1
  intro defaults hdefaults
  apply ends_pure
  refine ⟨h₁, ?_⟩
  rw [mapError_eq_ok] at hdefinitions hdesired hresolved hdefaults
  have htables := resolveSequenceStarts_tables hresolved
  intro op hop
  constructor
  · rintro t c d v rfl hv
    have hadd := addColumn_mem_buildup.mp (mem_buildup_of_mem hop rfl)
    have hd : defaults t c.name = some d := by
      have hdefault := hadd.2.2.2
      cases hnullable : c.nullable with
      | true =>
          rw [hnullable] at hdefault
          cases hdefault
      | false =>
          rw [hnullable] at hdefault
          exact hdefault.symm
    rcases requiredCreateDefaults_spec hdefaults hd with ⟨e, he, ht, hc, hsubstitute⟩
    exact ⟨definitions, hdefinitions, e, he, congrArg identifier ht, congrArg identifier hc,
      d, hsubstitute, v, hv, rfl⟩
  · rintro t c rfl
    have hadd := addCheck_mem_buildup.mp (mem_buildup_of_mem hop rfl)
    have hc := hadd.2.1
    rw [SchemaIR.table, htables] at hc
    rcases check_of_definition hdesired hc with ⟨d, hd, text, htext, heq⟩
    rw [heq]
    exact hchecks definitions hdefinitions d hd text htext

variable [DecidableEq V]

theorem applyPlan_ends {desired : SchemaIR} {plan : MigrationPlan} {versionId : ℤ}
    (hgate : plan.destructiveOps = []) (hplan : ∀ op ∈ plan, SafeOp S env directory op)
    (h : Intact S (declared S env directory) start s) :
    (applyPlan S env desired plan versionId).Ends faults s
      (fun _ s' => Keeps S (declared S env directory) start s'.committed)
      fun s' => s'.committed = start := by
  have hop : ∀ op ∈ plan, ∀ ensured,
      Careful S (declared S env directory) start (applyOp S env ensured op) := by
    intro op hop ensured
    have hkeeps : op.destructive = false := by
      by_contra hdestructive
      have hmem : op ∈ plan.destructiveOps :=
        List.mem_filter.mpr ⟨hop, by simpa using hdestructive⟩
      rw [hgate] at hmem
      cases hmem
    have hexecute : Careful S (declared S env directory) start (sql (op.execute S)) :=
      careful_sql fun _ _ h => execute_keeps hkeeps (hplan op hop) h
    unfold applyOp
    by_cases hfirst : (!ensured && referencesUser op) = true
    · rw [if_pos hfirst]
      apply careful_bind (upsertSystemUser_careful env)
      intro _
      exact careful_bind hexecute fun _ => careful_pure _
    · rw [if_neg hfirst]
      exact careful_bind hexecute fun _ => careful_pure _
  apply (careful_forEach fun ensured op hmem => hop op hmem ensured).andThen h
  intro _ s₁ h₁
  apply (ensureRows_careful env).andThen h₁
  intro _ s₂ h₂
  apply (recordSchemaVersion_careful _ _ _ _).andThen h₂
  intro _ s₃ h₃
  exact ends_commit h₃.2 h₃.1

theorem migrate_keeps_data (S : Server V) (env : Surroundings)
    (directory : Option (List DefinitionFile)) (faults : Faults MigrateError)
    (db : Database V) (sent : ℕ)
    (hchecks : ChecksAreExpressions S env directory) :
    (migrate S env directory false).Ends faults ⟨db, db, sent⟩
      (fun result s => result.plan.destructiveOps = [] ∧
        Keeps S (declared S env directory) db s.committed)
      fun s => s.committed = db := by
  have hstart : Intact S (declared S env directory) db ⟨db, db, sent⟩ :=
    ⟨rfl, Keeps.refl db⟩
  apply ends_bind
  apply (computePlan_ends hchecks hstart).imp _ fun _ hE => hE
  intro planned s h
  by_cases hempty : planned.plan = []
  · rw [if_pos hempty]
    apply (ensureRows_careful env).andThen h.1
    intro _ s' h'
    apply ends_bind
    apply ends_commit _ h'.1
    apply ends_pure
    exact ⟨by rw [hempty]; rfl, h'.2⟩
  · rw [if_neg hempty]
    by_cases hgate : planned.plan.destructiveOps ≠ [] ∧ false = false
    · rw [if_pos hgate]
      apply ends_bind
      exact ends_rollback (ends_raise h.1.1) h.1.1
    · rw [if_neg hgate]
      have hsafe : planned.plan.destructiveOps = [] := by
        by_contra hne
        exact hgate ⟨hne, rfl⟩
      apply (careful_select _).andThen h.1
      intro versionId s₁ h₁
      apply (careful_select _).andThen h₁
      intro _ s₂ h₂
      apply ends_bind
      apply ends_onError
      apply (applyPlan_ends hsafe h.2 h₂).imp
      · exact fun _ _ hkeeps => ends_pure ⟨hsafe, hkeeps⟩
      · exact fun _ hE => ends_rollback hE hE

end Migrations

/-! ## A class of users -/

/-- The attributes that `upsert_system_user` writes. -/
def userAttributes : Entries :=
  [("username", "compact_text"), ("password_hash", "text"),
    ("display_name", "compact_text"), ("is_active", "boolean"),
    ("failed_login_count", "integer"), ("password_expires_at", "datetime")].map fun a =>
      (.str a.1, .map [(.str "type", .str a.2), (.str "required", .bool true)])

def userFile (attributes declarations : Entries) : DefinitionFile :=
  ⟨"user.yaml", some (.map ([(.str "name", .str "user"), (.str "display_name", .str "User"),
    (.str "description", .str "Users"),
    (.str "attributes", .map (userAttributes ++ attributes))] ++ declarations))⟩

/-- The text closes the parenthesis of the check. -/
def closingCheck : String := "true); DELETE FROM \"user\"; SELECT (true"

/-- Values are their texts; of the texts of checks that are no expressions the
server is only given the one above. -/
def textServer : Server String where
  value _ v :=
    match v with
    | .str s => some s
    | .int i => some (toString i)
    | .float s => some s
    | .bool b => some (if b then "t" else "f")
  convert _ s := some s
  text s := some s
  int s := s.toInt?
  now := "2026-01-01T00:00:00Z"
  isExpression e := e ≠ closingCheck
  constraintDefinition c := "CHECK (" ++ c.expression ++ ")"
  script t c db := some { db with
    catalog := db.catalog.run [.addCheck t { c with expression := "true" }]
    rows := db.rows.filter fun r => r.table ≠ "user" }

def firstOfJanuary : Surroundings where
  scalars := asciiScalars
  now := "2026-01-01T00:00:00Z"
  tomorrow := "2026-01-02T00:00:00Z"
  sha256 _ := "digest"
  newUuid n := toString n

def emptyDatabase : Database String := ⟨⟨[], [], [], [], [], []⟩, [], [], 0⟩

/-- What the database holds after a migration without faults. -/
def migrated (db : Database String) (file : DefinitionFile) (allowDestructive : Bool) :
    Database String :=
  ((migrate textServer firstOfJanuary (some [file]) allowDestructive) (fun _ => none)
    ⟨db, db, 0⟩).2.committed

def freshDatabase : Database String := migrated emptyDatabase (userFile [] []) false

def someone : Row String := fun n => if n = "id" then some "someone" else none

/-- A first migration, and then a user. -/
def usersDatabase : Database String := freshDatabase.append "user" someone

theorem someone_mem : ⟨freshDatabase.nextKey, "user", someone⟩ ∈ usersDatabase.rows := by
  rw [usersDatabase, Database.append]
  exact List.mem_append_right _ (List.mem_singleton.mpr rfl)

def checkedFile (text : String) : DefinitionFile :=
  userFile [] [(.str "check_constraint", .str text)]

theorem checkedFile_expressions :
    ChecksAreExpressions textServer firstOfJanuary
      (some [checkedFile "failed_login_count >= 0"]) := by
  intro definitions hdefinitions
  have hall : (loadDefinitions asciiScalars
      (some [checkedFile "failed_login_count >= 0"])).toOption.all (fun ds =>
        ds.all fun d => d.checkConstraints.all fun text =>
          textServer.isExpression (normalizeCheckExpression text)) = true := by
    decide +kernel
  have hload : loadDefinitions asciiScalars
      (some [checkedFile "failed_login_count >= 0"]) = .ok definitions := hdefinitions
  rw [hload] at hall
  intro d hd text htext
  exact List.all_eq_true.mp (List.all_eq_true.mp hall d hd) text htext

theorem users_kept_with_check :
    (migrate textServer firstOfJanuary (some [checkedFile "failed_login_count >= 0"])
      false).Ends (fun _ => none) ⟨usersDatabase, usersDatabase, 0⟩
      (fun result s => result.plan.destructiveOps = [] ∧
        Keeps textServer (declared textServer firstOfJanuary
          (some [checkedFile "failed_login_count >= 0"])) usersDatabase s.committed)
      fun s => s.committed = usersDatabase :=
  migrate_keeps_data textServer firstOfJanuary
    (some [checkedFile "failed_login_count >= 0"]) (fun _ => none) usersDatabase 0
    checkedFile_expressions

/-- A check whose text goes on behind its expression deletes the users, by a plan
that adds a check and is not destructive. -/
theorem check_text_deletes_users :
    ¬(migrate textServer firstOfJanuary (some [checkedFile closingCheck]) false).Ends
      (fun _ => none) ⟨usersDatabase, usersDatabase, 0⟩
      (fun result s => result.plan.destructiveOps = [] ∧
        Keeps textServer (declared textServer firstOfJanuary
          (some [checkedFile closingCheck])) usersDatabase s.committed)
      fun s => s.committed = usersDatabase := by
  intro hclaim
  rcases hrun : (migrate textServer firstOfJanuary (some [checkedFile closingCheck]) false)
    (fun _ => none) ⟨usersDatabase, usersDatabase, 0⟩ with ⟨outcome, s⟩
  have hends : (fun r => r.1.isOk && r.2.committed.rows.all fun row =>
      row.table ≠ "user" ∨ row.key ≠ freshDatabase.nextKey)
        ((migrate textServer firstOfJanuary (some [checkedFile closingCheck]) false)
          (fun _ => none) ⟨usersDatabase, usersDatabase, 0⟩) = true := by
    decide +kernel
  rw [hrun, Bool.and_eq_true] at hends
  cases outcome with
  | error e => cases hends.1
  | ok result =>
      have hkeeps := (hclaim.result _ _ hrun).2
      have hcatalog : usersDatabase.catalog.HasTable "user" ∧
          usersDatabase.catalog.HasColumn "user" "id" := by decide +kernel
      rcases hkeeps.rows _ someone_mem hcatalog.1 (by decide) with
        ⟨values, hgrown, hsystem | ⟨hkept, _⟩⟩
      · have hid : values "id" = some "someone" :=
          hgrown.same hcatalog.2
        rcases hsystem with ⟨_, typeName, v, hv, hvalue⟩ | ⟨htable, _⟩
        · rw [hid] at hvalue
          cases hvalue
          revert hv
          simp [textServer, systemUserId]
        · exact absurd htable (by decide)
      · have hmiss := List.all_eq_true.mp hends.2 _ hkept
        simp at hmiss

end Untangled.Schema
