import Untangled.SchemaIntrospection
import Untangled.SchemaSerialize
import Untangled.SequenceStarts
import Untangled.TransactionPrograms

/-!
# Migrations

`migrate` of `migrate.py`: plan, destructive gate and application of the plan in
one transaction, with the rows that every migration ensures.
-/

namespace Untangled.Schema

open Mapping TransactionPrograms TransactionPrograms.Action

inductive MigrateError
  | raised (message : String)
  | destructivePlan (plan : MigrationPlan)
  deriving DecidableEq

/-- What a migration takes from its surroundings. -/
structure Surroundings where
  scalars : Scalars
  /-- The clock of the whole run. -/
  now : String
  tomorrow : String
  sha256 : ByteArray → String
  newUuid : ℕ → String

abbrev Migration (V : Type) := Action (Database V) MigrateError

variable {V : Type}

/-- What the code does without the database; an exception has only its text. -/
def python {α : Type} (x : Except String α) : Migration V α :=
  lift (x.mapError .raised)

/-- A statement that the server may refuse. -/
def sql (f : Database V → Option (Database V)) : Migration V Unit :=
  statement fun db =>
    match f db with
    | some db' => .ok ((), db')
    | none => .error (.raised "refused by the server")

def select {α : Type} (f : Database V → α) : Migration V α :=
  query fun db => .ok (f db)

/-! ## Version history -/

def schemaVersions : TableIR where
  name := "schema_versions"
  columns := [⟨"id", "bigint", false⟩, ⟨"schema_hash", "text", false⟩,
    ⟨"created_at", "timestamptz", false⟩, ⟨"superseded_at", "timestamptz", true⟩,
    ⟨"restore_point_name", "text", true⟩]
  primaryKey := ["id"]
  foreignKeys := []
  indexes := []
  checks := []

def schemaVersionClassHashes : TableIR where
  name := "schema_version_class_hashes"
  columns := [⟨"id", "uuid", false⟩, ⟨"schema_version_id", "bigint", false⟩,
    ⟨"class_name", "text", false⟩, ⟨"class_hash", "text", false⟩]
  primaryKey := ["id"]
  foreignKeys := [⟨"schema_version_class_hashes_schema_version_id_fkey",
    ["schema_version_id"], "schema_versions", ["id"]⟩]
  indexes := [⟨"schema_version_class_hashes_schema_version_id_class_name_key",
    ["schema_version_id", "class_name"], true⟩]
  checks := []

/-- `CREATE TABLE IF NOT EXISTS` with the constraints of the table. -/
def Database.createIfMissing (t : TableIR) (defaults : List ColumnDefault)
    (db : Database V) : Database V :=
  if db.catalog.HasTable t.name then db
  else { db with
    catalog := db.catalog.run (.createTable (tableWithoutFksIndexesOrChecks t) ::
      t.foreignKeys.map (.addForeignKey t.name) ++ t.indexes.map (.createIndex t.name))
    defaults := db.defaults ++ defaults }

def ensureBootstrapTables : Migration V Unit := do
  sql fun db => some
    (db.createIfMissing schemaVersions [⟨"schema_versions", "created_at", .now⟩])
  sql fun db => some (db.createIfMissing schemaVersionClassHashes [])

variable (S : Server V)

def nextSchemaVersionId : Migration V ℤ :=
  select fun db =>
    (((db.rowsOf "schema_versions").filterMap fun r =>
      (r.values "id").bind S.int).max?.getD 0) + 1

def restorePointNameFor (versionId : ℤ) : String :=
  "untangled_schema_v" ++ toString versionId

/-- The marker is written to the log, not to the database. -/
def createRestorePoint : Migration V Unit :=
  select fun _ => ()

def supersedeVersions (db : Database V) : Option (Database V) :=
  (S.value "timestamptz" (.str S.now)).map fun v =>
    db.mapRows "schema_versions" fun r =>
      if (r "superseded_at").isNone then r.set "superseded_at" (some v) else r

def tableHash (sha256 : ByteArray → String) (t : TableIR) : String :=
  sha256 (SortedJson.dumps (tableDict t)).toByteArray

def recordSchemaVersion (env : Surroundings) (versionId : ℤ) (desired : SchemaIR)
    (restorePointName : String) : Migration V Unit := do
  sql (supersedeVersions S)
  sql (Database.insert S "schema_versions" [("id", .int versionId),
    ("schema_hash", .str (schemaHash env.sha256 desired)),
    ("restore_point_name", .str restorePointName)])
  let _ ← forEach (fun n t => do
    sql (Database.insert S "schema_version_class_hashes" [("id", .str (env.newUuid n)),
      ("schema_version_id", .int versionId), ("class_name", .str t.name),
      ("class_hash", .str (tableHash env.sha256 t))])
    pure (n + 1)) 0 desired.tables
  pure ()

/-! ## Rows that every migration ensures -/

def systemUserId : String := "01900000-0000-7000-8000-000000000006"

def systemConfigId : String := "01900000-0000-7000-8000-000000000050"

def authzVersionId : String := "01900000-0000-7000-8000-000000000051"

variable [DecidableEq V]

/-- Execute the statement if the table is there. -/
def ifRelation (t : String) (m : Migration V Unit) : Migration V Unit := do
  let found ← select fun db => decide (db.catalog.HasTable t)
  if found then m else pure ()

def upsertSystemUserRow (now : String) : Database V → Option (Database V) :=
  Database.insertOnConflict S "user"
    [("id", .str systemUserId), ("created_at", .str now), ("updated_at", .str now),
      ("created_by", .str systemUserId), ("updated_by", .str systemUserId),
      ("username", .str "system"),
      ("password_hash", .str "untangled-system-not-a-password-hash"),
      ("display_name", .str "System"), ("is_active", .bool false),
      ("failed_login_count", .int 0), ("password_expires_at", .str now)]
    ["username", "password_hash", "display_name", "is_active", "password_expires_at",
      "updated_at", "updated_by"]

/-- `DELETE FROM user_role WHERE user_id = ...` -/
def clearSystemUserRoles (db : Database V) : Option (Database V) :=
  (S.value "uuid" (.str systemUserId)).bind fun v =>
    db.deleteWhere "user_role" "user_id" v

/-- The audit event goes to no table; to emit it may fail like a statement. -/
def emitFailClosed : Migration V Unit :=
  select fun _ => ()

def upsertSystemUser (env : Surroundings) : Migration V Unit :=
  ifRelation "user" do
    sql (upsertSystemUserRow S env.now)
    ifRelation "user_role" do
      emitFailClosed
      sql (clearSystemUserRoles S)

/-- `SYSTEM_CONFIG_DEFAULTS` -/
def systemConfigDefaults : List (String × AddDefaultValue) :=
  [("max_search_nesting_depth", .int 3), ("max_search_nesting_length", .int 20),
    ("max_search_total_predicates", .int 50), ("max_search_total_regexp", .int 3),
    ("system_config_cache_ttl_seconds", .int 900), ("password_minimum_chars", .int 12),
    ("password_maximum_chars", .int 128), ("password_acceptable_crack_time_days", .int 1000),
    ("password_guess_per_second", .int 10000),
    ("password_estimate_drift_factor", .str "1.1"), ("password_expiry_days", .int 90),
    ("password_grace_days", .int 14), ("login_process_time_minimum", .int 300),
    ("login_process_time_maximum", .int 500), ("login_hash_concurrency_limit", .int 4),
    ("login_maximum_failed_count", .int 5), ("login_rate_limit_per_user_threshold", .int 10),
    ("login_rate_limit_per_user_sample_period", .int 300),
    ("login_rate_limit_per_ip_threshold", .int 10),
    ("login_rate_limit_per_ip_sample_period", .int 300),
    ("login_rate_limit_l1_delay", .int 500), ("login_rate_limit_l2_delay", .int 2000),
    ("login_rate_limit_lockout_seconds", .int 900), ("login_rate_limit_max_kib", .int 16384),
    ("audit_bulk_read_window_seconds", .int 600), ("audit_bulk_read_max_searches", .int 100),
    ("session_access_ttl_seconds", .int 900), ("session_refresh_ttl_seconds", .int 604800),
    ("session_total_ttl_seconds", .int 2592000),
    ("session_refresh_reuse_grace_seconds", .int 15),
    ("session_refresh_reuse_window_seconds", .int 86400),
    ("session_max_refresh_retries", .int 5), ("session_refresh_cleanup_seconds", .int 14400),
    ("session_refresh_process_time_minimum", .int 300),
    ("session_refresh_process_time_maximum", .int 500)]

/-- The audit columns of a row that a migration inserts. -/
def auditValues (id now : String) : List (String × AddDefaultValue) :=
  [("id", .str id), ("created_at", .str now), ("updated_at", .str now),
    ("created_by", .str systemUserId), ("updated_by", .str systemUserId)]

def ensureSystemConfigRow (env : Surroundings) : Migration V Unit :=
  ifRelation "system_config"
    (sql (Database.insertOnConflict S "system_config"
      (auditValues systemConfigId env.now ++ systemConfigDefaults) []))

def ensureAuthzVersionRow (env : Surroundings) : Migration V Unit :=
  ifRelation "authz_version"
    (sql (Database.insertOnConflict S "authz_version"
      (auditValues authzVersionId env.now ++ [("version", .int 1)]) []))

def ensureRows (env : Surroundings) : Migration V Unit := do
  upsertSystemUser S env
  ensureSystemConfigRow S env
  ensureAuthzVersionRow S env

/-! ## Defaults of new columns -/

/-- `substitute_if_tokens` in the context `create_default` -/
def substituteDefault (env : Surroundings) : AddDefaultValue → Except String AddDefaultValue
  | .str s =>
      if ['$', '{'] <:+: s.toList then do
        let text ← substitute [("now", env.now), ("tomorrow", env.tomorrow)]
          s.toList.length s.toList
        pure (.str (String.ofList text))
      else pure (.str s)
  | v => pure v

structure RequiredDefault where
  table : String
  column : String
  value : AddDefaultValue

/-- The create-defaults of required attributes, in the order of the files. -/
def declaredDefaults (definitions : List ClassDefinition) : List RequiredDefault :=
  definitions.flatMap fun d => d.attributes.filterMap fun a =>
    if a.required then a.createDefault.map fun v => ⟨d.nameSnake, a.nameSnake, v⟩ else none

/-- Of two defaults for one column the later one counts. -/
def requiredCreateDefaults (env : Surroundings) (definitions : List ClassDefinition) :
    Except String ColumnAddDefaults := do
  let resolved ← (declaredDefaults definitions).mapM fun e => do
    pure { e with value := ← substituteDefault env e.value }
  pure fun t c => (resolved.reverse.find? fun e => e.table = t ∧ e.column = c).map
    RequiredDefault.value

/-! ## The migration -/

/-- The columns that `resolve_sequence_starts` reads. -/
def Database.live (db : Database V) : LiveData := fun t c =>
  match db.catalog.columns.find? fun r => r.table = t ∧ r.item.name = c with
  | none => .missing
  | some r =>
      if r.item.typeName = "text" then
        .texts ((db.rowsOf t).map fun row => (row.values c).bind S.text)
      else .other

structure Planned where
  desired : SchemaIR
  plan : MigrationPlan

/-- The first half of `migrate`, up to the plan. -/
def computePlan (env : Surroundings) (directory : Option (List DefinitionFile)) :
    Migration V Planned := do
  let definitions ← python (loadDefinitions env.scalars directory)
  let desired ← python (desiredSchemaFromClasses env.scalars.toCharRules definitions)
  ensureBootstrapTables
  let current ← query fun db => (currentSchema S.constraintDefinition db.catalog
    (namesOf desired.tables) (namesOf desired.sequences)).mapError .raised
  let desiredForPlan ← query fun db =>
    (resolveSequenceStarts (db.live S) desired).mapError .raised
  let defaults ← python (requiredCreateDefaults env definitions)
  pure ⟨desired, diffSchemas desiredForPlan current defaults⟩

def referencesUser : MigrationOp → Bool
  | .addForeignKey _ fk => fk.referencedTable = auditUserTable
  | _ => false

/-- One operation of the plan; the state says whether the system user was ensured
for the foreign keys to the users. -/
def applyOp (env : Surroundings) (systemUserEnsured : Bool) (op : MigrationOp) :
    Migration V Bool := do
  if !systemUserEnsured && referencesUser op then
    upsertSystemUser S env
    sql (op.execute S)
    pure true
  else
    sql (op.execute S)
    pure systemUserEnsured

def applyPlan (env : Surroundings) (desired : SchemaIR) (plan : MigrationPlan)
    (versionId : ℤ) : Migration V Unit := do
  let _ ← forEach (applyOp S env) false plan
  ensureRows S env
  recordSchemaVersion S env versionId desired (restorePointNameFor versionId)
  commit

structure MigrateResult where
  desired : SchemaIR
  plan : MigrationPlan
  applied : Bool
  versionId : Option ℤ

def migrate (env : Surroundings) (directory : Option (List DefinitionFile))
    (allowDestructive : Bool) : Migration V MigrateResult := do
  let planned ← computePlan S env directory
  if planned.plan = [] then
    ensureRows S env
    commit
    pure ⟨planned.desired, planned.plan, false, none⟩
  else if planned.plan.destructiveOps ≠ [] ∧ allowDestructive = false then
    rollback
    raise (.destructivePlan planned.plan)
  else
    let versionId ← nextSchemaVersionId S
    createRestorePoint
    (applyPlan S env planned.desired planned.plan versionId).onError rollback
    pure ⟨planned.desired, planned.plan, true, some versionId⟩

end Untangled.Schema
