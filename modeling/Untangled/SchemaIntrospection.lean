import Untangled.Database
import Untangled.DesiredSchema

/-!
# Introspection

The schema read back from the catalog: the tables that a migration manages with
all their members, every other table by its name only.
-/

namespace Untangled.Schema

open PythonText Mapping

/-! ## Types -/

def pgToIr : List (String × String) :=
  [("text", "text"), ("boolean", "boolean"), ("bool", "boolean"), ("integer", "integer"),
    ("int4", "integer"), ("double precision", "double precision"),
    ("float8", "double precision"), ("numeric", "numeric"), ("uuid", "uuid"),
    ("timestamptz", "timestamptz"), ("timestamp with time zone", "timestamptz")]

/-- The known names are in ASCII, and so is the lower case that matters. -/
def typeKey (candidate : String) : String :=
  String.ofList ((stripChars candidate.toList).map Char.toLower)

def irTypeFromPostgres (dataType udtName : String) : Except String String :=
  match pgToIr.lookup (typeKey udtName), pgToIr.lookup (typeKey dataType) with
  | some t, _ => pure t
  | none, some t => pure t
  | none, none => throw "unsupported Postgres type for Schema IR"

/-- `data_type` and `udt_name` of a column in the information schema. -/
def catalogTypeNames (typeName : String) : String × String :=
  match [("boolean", "boolean", "bool"), ("integer", "integer", "int4"),
    ("double precision", "double precision", "float8"),
    ("timestamptz", "timestamp with time zone", "timestamptz")].lookup typeName with
  | some names => names
  | none => (typeName, typeName)

def introspectType (typeName : String) : Except String String :=
  irTypeFromPostgres (catalogTypeNames typeName).1 (catalogTypeNames typeName).2

/-! ## Tables -/

def introspectColumn (c : ColumnIR) : Except String ColumnIR := do
  pure { c with typeName := ← introspectType c.typeName }

def itemsOf {α : Type} (rows : List (Owned α)) (t : String) : List α :=
  (rows.filter fun r => r.table = t).map Owned.item

/-- `definition` is the server's `pg_get_constraintdef`. -/
def introspectCheck (definition : CheckIR → String) (c : CheckIR) : CheckIR :=
  { c with expression := normalizeCheckExpression (definition c) }

variable (definition : CheckIR → String) (cat : Catalog)

def introspectTable (t : String) : Except String TableIR := do
  let columns ← (itemsOf cat.columns t).mapM introspectColumn
  pure {
    name := t
    columns := columns
    primaryKey := ((cat.tables.find? fun e => e.name = t).map TableEntry.primaryKey).getD []
    foreignKeys := sortedByName (itemsOf cat.foreignKeys t)
    indexes := sortedByName (itemsOf cat.indexes t)
    checks := (sortedByName (itemsOf cat.checks t)).map (introspectCheck definition) }

def introspectSequences (sequenceNames : List String) : List SequenceIR :=
  (sortedByName (cat.sequences.filter fun s => s.name ∈ sequenceNames)).map fun s =>
    ⟨s.name, s.start, "", "", "", false⟩

/-- The tables that keep the history of versions. -/
def bootstrapTableNames : List String :=
  ["schema_versions", "schema_version_class_hashes"]

def listBaseTableNames : List String :=
  sortedNames ((cat.tables.map TableEntry.name).filter (· ∉ bootstrapTableNames))

def currentSchema (desiredTableNames sequenceNames : List String) :
    Except String SchemaIR := do
  let present := (listBaseTableNames cat).filter (· ∈ desiredTableNames)
  let hitchhikers := (listBaseTableNames cat).filter (· ∉ desiredTableNames)
  let tables ← present.mapM (introspectTable definition cat)
  pure ⟨tables ++ hitchhikers.map fun n => ⟨n, [], [], [], [], []⟩,
    introspectSequences cat sequenceNames⟩

end Untangled.Schema
