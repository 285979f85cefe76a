import Untangled.DefinitionSets

/-!
# The schema that definitions ask for

Every class becomes a table with the system fields and its attributes, foreign
keys to the referenced classes and to the users of the audit fields, a unique
index for each unique attribute or list of attributes, and its checks.
-/

namespace Untangled.Mapping

open PythonText Untangled.Schema

/-! ## Names -/

/-- Names with an underscore between them. -/
def joinNames : List String → String
  | [] => ""
  | [n] => n
  | n :: rest => n ++ "_" ++ joinNames rest

def foreignKeyConstraintName (tableName : String) (columns : List String) : String :=
  tableName ++ "_" ++ joinNames columns ++ "_fkey"

def uniqueIndexName (tableName : String) (columns : List String) : String :=
  tableName ++ "_" ++ joinNames columns ++ "_key"

/-- Checks are numbered from one. -/
def checkConstraintName (tableName : String) (index : ℕ) : String :=
  tableName ++ "_check_" ++ toString index

def friendlyIdSequenceName (R : CharRules) (idPrefix : String) : String :=
  "friendly_id" ++ "_" ++ R.lower idPrefix

/-! ## Check expressions -/

/-- The state of the scan for the parenthesis that closes the first one: whether
none closed it before the end, and the depth. -/
def scanDepth : ℤ → List Char → Bool × ℤ
  | depth, [] => (true, depth)
  | depth, '(' :: rest => scanDepth (depth + 1) rest
  | depth, ')' :: rest =>
      if depth - 1 = 0 ∧ rest ≠ [] then (false, depth - 1)
      else scanDepth (depth - 1) rest
  | depth, _ :: rest => scanDepth depth rest

def wrapped (text : List Char) : Bool :=
  text.head? = some '(' && text.getLast? = some ')' && scanDepth 0 text = (true, 0)

/-- Take off the pairs of parentheses around the whole text, at most as many as
it has characters. -/
def unwrapBalancedParens : ℕ → List Char → List Char
  | 0, text => text
  | fuel + 1, text =>
      if wrapped text then unwrapBalancedParens fuel (stripChars ((text.drop 1).dropLast))
      else text

def stripKeyword (text : List Char) : List Char :=
  if (text.take 5).map Char.toUpper = ['C', 'H', 'E', 'C', 'K'] then
    stripChars (text.drop 5)
  else text

def normalizeChars (raw : List Char) : List Char :=
  let text := stripKeyword (join (split (stripChars raw)))
  join (split (unwrapBalancedParens text.length text))

def normalizeCheckExpression (raw : String) : String :=
  String.ofList (normalizeChars raw.toList)

/-! ## Tables -/

def yamlToPostgres : List (String × String) :=
  [("string", "text"), ("compact_text", "text"), ("choice", "text"), ("status", "text"),
    ("text", "text"), ("multiline_text", "text"), ("boolean", "boolean"),
    ("integer", "integer"), ("float", "double precision"), ("decimal", "numeric"),
    ("uuid", "uuid"), ("datetime", "timestamptz"), ("friendly_id", "text")]

def postgresType (typeName : String) : Except String String :=
  match yamlToPostgres.lookup typeName with
  | some t => pure t
  | none => throw "unsupported attribute type"

def systemFields : List (String × String) :=
  [("id", "uuid"), ("created_at", "datetime"), ("updated_at", "datetime"),
    ("created_by", "uuid"), ("updated_by", "uuid")]

def auditUserTable : String := "user"

def systemColumn (field : String × String) : Except String ColumnIR := do
  pure ⟨field.1, ← postgresType field.2, false⟩

def attributeColumn (a : AttributeDefinition) : Except String ColumnIR := do
  pure ⟨a.nameSnake, ← postgresType a.typeName, !a.required⟩

def auditForeignKeys (tableName : String) : List ForeignKeyIR :=
  ((systemFields.map Prod.fst).filter (· ∈ ["created_by", "updated_by"])).map fun column =>
    ⟨foreignKeyConstraintName tableName [column], [column], auditUserTable, ["id"]⟩

def referenceForeignKey (tableName : String) (a : AttributeDefinition) :
    Option ForeignKeyIR :=
  a.references.map fun c =>
    ⟨foreignKeyConstraintName tableName [a.nameSnake], [a.nameSnake], c, ["id"]⟩

/-- The lists of columns that a class wants to be unique. -/
def uniqueDeclarations (d : ClassDefinition) : List (List String) :=
  ((d.attributes.filter AttributeDefinition.unique).map fun a => [a.nameSnake]) ++
    d.uniqueConstraints

def uniqueIndex (tableName : String) (columns : List String) : IndexIR :=
  ⟨uniqueIndexName tableName columns, columns, true⟩

def tableChecks (d : ClassDefinition) : List CheckIR :=
  d.checkConstraints.zipIdx.map fun c =>
    ⟨checkConstraintName d.nameSnake (c.2 + 1), normalizeCheckExpression c.1⟩

def tableFromDefinition (d : ClassDefinition) : Except String TableIR := do
  let systemColumns ← systemFields.mapM systemColumn
  let columns ← d.attributes.mapM attributeColumn
  pure {
    name := d.nameSnake
    columns := systemColumns ++ columns
    primaryKey := ["id"]
    foreignKeys := auditForeignKeys d.nameSnake ++
      d.attributes.filterMap (referenceForeignKey d.nameSnake)
    indexes := (uniqueDeclarations d).map (uniqueIndex d.nameSnake)
    checks := tableChecks d }

/-! ## The schema -/

section Schema

variable (R : CharRules)

/-- The sequence that numbers the friendly ids of a class. -/
def sequenceFromDefinition (d : ClassDefinition) : Option SequenceIR :=
  d.friendlyIdAttr.bind fun a => a.idPrefix.map fun p => {
    name := friendlyIdSequenceName R p
    start := a.startAt.getD 1
    tableName := d.nameSnake
    columnName := a.nameSnake
    idPrefix := p
    resolveStartFromData := a.startAt.isNone }

def desiredSchemaFromClasses (definitions : List ClassDefinition) :
    Except String SchemaIR := do
  validatePlatformDefinitions definitions
  let tables ← definitions.mapM tableFromDefinition
  pure ⟨tables, sortedByName (definitions.filterMap (sequenceFromDefinition R))⟩

end Schema

/-! ## Tables of accepted classes -/

theorem postgresType_supported {typeName : String} (h : typeName ∈ supportedTypes) :
    ∃ t, postgresType typeName = .ok t := by
  have hall : ∀ n ∈ supportedTypes, ∃ t ∈ yamlToPostgres.map Prod.snd,
      yamlToPostgres.lookup n = some t := by decide
  rcases hall typeName h with ⟨t, _, ht⟩
  exact ⟨t, by rw [postgresType, ht]; rfl⟩

theorem mapM_ok_names {α β : Type} {f : α → Except String β} {key : α → String}
    {key' : β → String} {items : List α} {results : List β}
    (hf : ∀ a ∈ items, ∀ b, f a = .ok b → key' b = key a)
    (h : items.mapM f = .ok results) : results.map key' = items.map key := by
  induction items generalizing results with
  | nil =>
      rw [List.mapM_nil] at h
      cases h
      rfl
  | cons a items ih =>
      rw [List.mapM_cons] at h
      rcases bind_eq_ok.mp h with ⟨b, hb, h⟩
      rcases bind_eq_ok.mp h with ⟨rest, hrest, h⟩
      cases h
      rw [List.map_cons, List.map_cons, hf a (.head _) b hb,
        ih (fun a' ha' => hf a' (.tail _ ha')) hrest]

/-- The table of a class, apart from the types of its columns. -/
structure TableOf (d : ClassDefinition) (t : TableIR) : Prop where
  name : t.name = d.nameSnake
  columns : namesOf t.columns =
    systemFieldNames ++ d.attributes.map AttributeDefinition.nameSnake
  primaryKey : t.primaryKey = ["id"]
  foreignKeys : t.foreignKeys = auditForeignKeys d.nameSnake ++
    d.attributes.filterMap (referenceForeignKey d.nameSnake)
  indexes : t.indexes = (uniqueDeclarations d).map (uniqueIndex d.nameSnake)
  checks : t.checks = tableChecks d

theorem tableFromDefinition_spec {d : ClassDefinition} {t : TableIR}
    (h : tableFromDefinition d = .ok t) : TableOf d t := by
  unfold tableFromDefinition at h
  rcases bind_eq_ok.mp h with ⟨systemColumns, hsystem, h⟩
  rcases bind_eq_ok.mp h with ⟨columns, hcolumns, h⟩
  cases h
  refine ⟨rfl, ?_, rfl, rfl, rfl, rfl⟩
  have hnames : systemColumns.map ColumnIR.name = systemFields.map Prod.fst := by
    apply mapM_ok_names _ hsystem
    intro field _ c hc
    rcases bind_eq_ok.mp hc with ⟨_, _, hc⟩
    cases hc
    rfl
  have hattributes : columns.map ColumnIR.name =
      d.attributes.map AttributeDefinition.nameSnake := by
    apply mapM_ok_names _ hcolumns
    intro a _ c hc
    rcases bind_eq_ok.mp hc with ⟨_, _, hc⟩
    cases hc
    rfl
  rw [namesOf, List.map_append]
  exact congrArg₂ (· ++ ·) hnames hattributes

theorem mapM_ok_forall₂ {α β : Type} {f : α → Except String β} {items : List α}
    {results : List β} (h : items.mapM f = .ok results) :
    List.Forall₂ (fun a b => f a = .ok b) items results := by
  induction items generalizing results with
  | nil =>
      rw [List.mapM_nil] at h
      cases h
      exact .nil
  | cons a items ih =>
      rw [List.mapM_cons] at h
      rcases bind_eq_ok.mp h with ⟨b, hb, h⟩
      rcases bind_eq_ok.mp h with ⟨rest, hrest, h⟩
      cases h
      exact .cons hb (ih hrest)

section Forall₂

variable {α β γ : Type} {P : α → β → Prop} {items : List α} {results : List β}

theorem map_eq_of_forall₂ {f : α → γ} {g : β → γ}
    (h : List.Forall₂ (fun a b => g b = f a) items results) :
    results.map g = items.map f := by
  induction h with
  | nil => rfl
  | cons hhead _ ih => rw [List.map_cons, List.map_cons, hhead, ih]

theorem exists_of_mem_forall₂ (h : List.Forall₂ P items results) {b : β}
    (hb : b ∈ results) : ∃ a ∈ items, P a b := by
  induction h with
  | nil => cases hb
  | cons hhead _ ih =>
      rcases List.mem_cons.mp hb with rfl | hb
      · exact ⟨_, .head _, hhead⟩
      · rcases ih hb with ⟨a, ha, hP⟩
        exact ⟨a, .tail _ ha, hP⟩

end Forall₂

/-- The schema of accepted definitions. -/
structure DesiredOf (R : CharRules) (definitions : List ClassDefinition)
    (s : SchemaIR) : Prop where
  tables : List.Forall₂ TableOf definitions s.tables
  sequences : s.sequences =
    sortedByName (definitions.filterMap (sequenceFromDefinition R))
  user : "user" ∈ definitions.map ClassDefinition.nameSnake

theorem desiredSchemaFromClasses_spec {R : CharRules}
    {definitions : List ClassDefinition} {s : SchemaIR}
    (h : desiredSchemaFromClasses R definitions = .ok s) : DesiredOf R definitions s := by
  unfold desiredSchemaFromClasses at h
  rcases bind_eq_ok.mp h with ⟨_, huser, h⟩
  rcases bind_eq_ok.mp h with ⟨tables, htables, h⟩
  cases h
  refine ⟨?_, rfl, validatePlatformDefinitions_user huser⟩
  exact (mapM_ok_forall₂ htables).imp fun _ _ => tableFromDefinition_spec

end Untangled.Mapping
