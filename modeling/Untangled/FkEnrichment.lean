import Untangled.LoadedClasses
import Untangled.SearchMeaning
import Untangled.SqlSelect

/-!
# Identities of referenced rows

`build_enriched_read_plan` joins the table of each projected foreign key under an
alias of its own and `map_enriched_row` makes identities of what the joins select.
-/

namespace Untangled.Search

open Mapping Records SqlExpressions SqlSelect

structure RelatedIdentity where
  id : String
  hasDisplay : Bool
  displayValue : Option String
  hasFriendly : Bool
  friendlyValue : Option String
  deriving DecidableEq

structure FkJoinSpec where
  sourceColumn : String
  targetTable : String
  joinAlias : String
  displayColumn : Option String
  friendlyColumn : Option String
  displaySelectAlias : Option String
  friendlySelectAlias : Option String
  deriving DecidableEq

/-- A column of a `SELECT` list and its name in the result. -/
structure SelectPart where
  qualifier : Option String
  column : String
  output : String
  deriving DecidableEq

/-- The joins follow the source table, whose alias is `src`. -/
structure EnrichedReadPlan where
  sourceColumns : List String
  sourceTable : String
  joins : List FkJoinSpec
  selectList : List SelectPart
  deriving DecidableEq

/-- Projected columns with the classes that they reference. -/
def resolveFkFields (d : ClassDefinition) (projected : List String) : List (String × String) :=
  (d.attributes.filterMap fun a =>
    match a.references with
    | none => none
    | some target => if a.nameSnake ∈ projected then some (a.nameSnake, target) else none) ++
  (["created_by", "updated_by"].filter (· ∈ projected)).map fun column => (column, "user")

section Plan

variable (index : String → Option LoadedClass)

def joinSpec (sourceColumn : String) (target : LoadedClass) : FkJoinSpec :=
  let joinAlias := "fk__" ++ sourceColumn
  let displayColumn := target.displayAttribute.map AttributeDefinition.nameSnake
  let friendlyColumn := target.friendlyIdAttr.map AttributeDefinition.nameSnake
  { sourceColumn
    targetTable := target.nameSnake
    joinAlias
    displayColumn
    friendlyColumn
    displaySelectAlias := displayColumn.map fun _ => joinAlias ++ "__display"
    friendlySelectAlias := friendlyColumn.map fun _ => joinAlias ++ "__friendly" }

def buildJoin (field : String × String) : Except String FkJoinSpec :=
  match index field.2 with
  | none => throw "FK references unknown class"
  | some target =>
      if field.2 = "user" ∧ target.nameSnake ≠ auditUserTable then
        throw "audit FK target must resolve to system user class"
      else pure (joinSpec field.1 target)

def selectPart (joinAlias : String) : Option String → Option String → List SelectPart
  | some column, some output => [⟨some joinAlias, column, output⟩]
  | _, _ => []

/-- What a join adds to the `SELECT` list. -/
def FkJoinSpec.selectParts (join : FkJoinSpec) : List SelectPart :=
  selectPart join.joinAlias join.displayColumn join.displaySelectAlias ++
    selectPart join.joinAlias join.friendlyColumn join.friendlySelectAlias

def buildEnrichedReadPlan (d : ClassDefinition) (projected : List String) :
    Except String EnrichedReadPlan := do
  let joins ← (resolveFkFields d projected).mapM (buildJoin index)
  pure
    { sourceColumns := projected
      sourceTable := d.nameSnake
      joins
      selectList := (projected.map fun column => ⟨some "src", column, column⟩) ++
        joins.flatMap FkJoinSpec.selectParts }

end Plan

/-! ## Rows of a result -/

/-- The columns of a result row by name. -/
abbrev ResultRow := List (String × Value)

/-- A dictionary keeps the last of several columns with one name. -/
def ResultRow.get (row : ResultRow) (name : String) : Option Value := row.reverse.lookup name

/-- A value of a mapped row. -/
inductive Field
  | value (v : Value)
  | identity (r : RelatedIdentity)
  deriving DecidableEq

def asText : Option Value → Option String
  | some (.text s) => some s
  | _ => none

def relatedIdentity (row : ResultRow) (join : FkJoinSpec) (id : String) : RelatedIdentity where
  id := id
  hasDisplay := join.displayColumn.isSome
  displayValue := join.displaySelectAlias.bind fun name => asText (row.get name)
  hasFriendly := join.friendlyColumn.isSome
  friendlyValue := join.friendlySelectAlias.bind fun name => asText (row.get name)

/-- The later of two joins for a column counts. -/
def EnrichedReadPlan.joinOf (plan : EnrichedReadPlan) (name : String) : Option FkJoinSpec :=
  plan.joins.reverse.find? fun join => join.sourceColumn = name

def mapEnrichedField (row : ResultRow) (plan : EnrichedReadPlan) (name : String) :
    Except String (String × Field) :=
  match row.get name with
  | none => throw "KeyError"
  | some v =>
      match plan.joinOf name with
      | none => pure (name, .value v)
      | some join =>
          match v with
          | .null => pure (name, .value .null)
          | .uuid id => pure (name, .identity (relatedIdentity row join id))
          | _ => throw "AssertionError"

def mapEnrichedRow (row : ResultRow) (plan : EnrichedReadPlan) :
    Except String (List (String × Field)) :=
  plan.sourceColumns.mapM (mapEnrichedField row plan)

end Untangled.Search
