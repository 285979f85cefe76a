import Untangled.FkEnrichment

/-!
# Executing a search

`execute_search` over the tables of a database: the request is resolved and compiled,
then counted and selected.  How the database runs the two statements is left open.
-/

namespace Untangled.Search

open Mapping Records SqlExpressions SqlSelect

/-! ## Requests -/

structure SearchRequest where
  predicate : Json
  sort : List (String × Direction)
  attributes : List String
  limit : Option ℤ
  offset : Option ℤ
  enrichFkIdentity : Bool
  idOnlyAttributes : Bool

inductive SearchError
  | search (failure : SearchFailure)
  /-- `RuntimeError`, or another error that no caller expects. -/
  | runtime (message : String)
  deriving DecidableEq

def defaultSearchLimit : ℤ := 20

def maxSearchLimit : ℤ := 200

def resolveLimit (limit : Option ℤ) : Except SearchError ℤ :=
  match limit with
  | none => pure defaultSearchLimit
  | some limit =>
      if limit < 1 ∨ maxSearchLimit < limit then
        throw (.search (.semantic "limit must be between 1 and 200"))
      else pure limit

def resolveOffset (offset : Option ℤ) : Except SearchError ℤ :=
  match offset with
  | none => pure 0
  | some offset =>
      if offset < 0 then throw (.search (.semantic "offset must be non-negative"))
      else pure offset

/-- The columns that are not seen yet, after those that are. -/
def projectColumns (attrs : Attributes) :
    List String → List String → Except SearchError (List String)
  | [], seen => pure seen
  | name :: names, seen =>
      match attrs.get name with
      | none => throw (.search (.semantic "unknown attribute"))
      | some _ =>
          if name ∈ seen then projectColumns attrs names seen
          else projectColumns attrs names (seen ++ [name])

def resolveProjection (attributes : List String) (attrs : Attributes) :
    Except SearchError (List String) :=
  projectColumns attrs attributes ["id"]

/-- The keys of the caller, then those that make the order stable. -/
def resolveSort (sort : List (String × Direction)) (attrs : Attributes) :
    Except SearchError (List (String × Direction)) :=
  if ∀ key ∈ sort, (attrs.get key.1).isSome then
    let order := sort
    let order :=
      if "created_at" ∈ sort.map Prod.fst then order else order ++ [("created_at", .desc)]
    let order := if "id" ∈ sort.map Prod.fst then order else order ++ [("id", .desc)]
    pure order
  else throw (.search (.semantic "unknown sort attribute"))

/-! ## Statements -/

/-- The rows of each table. -/
abbrev Tables := String → List RowData

/-- What is fixed while requests are served. -/
structure SearchEnvironment where
  postgres : Postgres
  adapters : TypeAdapters
  isoformat : ℤ → String

/-- Where a statement finds out that a pattern is malformed, other than at a text without
which its condition has no value. -/
structure PatternChecks where
  whilePlanning : Bool
  onEveryRow : Bool

/-- How the database runs the statements of one call: the order in which the `SELECT`
finds its rows, and where both look at patterns. -/
structure Execution where
  select : Plan (Scope Value)
  countPatterns : PatternChecks
  selectPatterns : PatternChecks

section Statements

variable (D : Postgres) (tables : Tables)

/-- A planner compiles the patterns of a condition, whatever text they will meet. -/
def anyText : Option String → String → Option Value := fun _ _ => some (.text "")

/-- `WHERE`; a malformed pattern is reported as an invalid value. -/
def whereScopes (compiled : Fragment × List Value) (patterns : PatternChecks)
    (scopes : List (Scope Value)) : Except SearchError (List (Scope Value)) :=
  match (bindParams compiled.1 compiled.2).bind parse with
  | none => throw (.runtime "SyntaxError")
  | some e =>
      let outcomeOf := fun scope : Scope Value => outcome (operators D) scope.column e
      if (patterns.whilePlanning = true ∧ (outcome (operators D) anyText e).fails = true) ∨
          ∃ scope ∈ scopes, (outcomeOf scope).fails = true ∧
            (patterns.onEveryRow = true ∨ (outcomeOf scope).truth = none) then
        throw (.search (.semantic "invalid regular expression in regexp predicate"))
      else pure (scopes.filter fun scope => (outcomeOf scope).truth = some true)

/-- `FROM table AS alias` -/
def fromTable (table tableAlias : String) : List (Scope Value) :=
  (tables table).map fun row => [(tableAlias, row.datum)]

/-- `ON src.column = join.id` -/
def onSourceColumn (column : String) (scope : Scope Value) (row : Columns Value) : Bool :=
  match scope.column (some "src") column, row "id" with
  | some v, some w => D.order v w = .eq
  | _, _ => false

def joinTable (scopes : List (Scope Value)) (join : FkJoinSpec) : List (Scope Value) :=
  leftJoin join.joinAlias ((tables join.targetTable).map RowData.datum)
    (onSourceColumn D join.sourceColumn) scopes

structure SelectQuery where
  scopes : List (Scope Value)
  condition : Fragment × List Value
  /-- The alias before the columns of the order. -/
  orderQualifier : Option String
  order : List (String × Direction)
  selectList : List SelectPart

/-- A null is a value of a result. -/
def toValue (datum : Option Value) : Value := datum.getD .null

def selectRow (selectList : List SelectPart) (scope : Scope Value) : ResultRow :=
  selectList.map fun part => (part.output, toValue (scope.column part.qualifier part.column))

def orderScopes (qualifier : Option String) (order : List (String × Direction)) :
    Scope Value → Scope Value → Ordering :=
  orderBy D.order (order.map fun key => (fun scope => scope.column qualifier key.1, key.2))

/-- `SELECT … WHERE … ORDER BY … LIMIT … OFFSET …` -/
def runSelect (query : SelectQuery) (execution : Execution) (limit offset : ℤ) :
    Except SearchError (List ResultRow) := do
  let scopes ← whereScopes D query.condition execution.selectPatterns query.scopes
  let sorted := execution.select.sort (orderScopes D query.orderQualifier query.order) scopes
  pure ((page offset.toNat limit.toNat sorted).map (selectRow query.selectList))

def runCount (scopes : List (Scope Value)) (condition : Fragment × List Value)
    (execution : Execution) : Except SearchError ℕ := do
  let scopes ← whereScopes D condition execution.countPatterns scopes
  pure scopes.length

end Statements

/-! ## Items -/

inductive WireValue
  | null
  | text (s : String)
  | bool (b : Bool)
  | int (i : ℤ)
  | float (text : String)
  | identity (r : RelatedIdentity)
  deriving DecidableEq

abbrev Item := List (String × WireValue)

structure SearchResult where
  items : List Item
  limit : ℤ
  offset : ℤ
  total : ℕ
  deriving DecidableEq

section Items

variable (isoformat : ℤ → String)

/-- `format_utc_iso_z` for datetimes; one that is out of the calendar is not even loaded. -/
def serializeValue : Value → Except SearchError WireValue
  | .null => pure .null
  | .text s => pure (.text s)
  | .bool b => pure (.bool b)
  | .int i => pure (.int i)
  | .float text => pure (.float text)
  | .decimal text => pure (.text text)
  | .uuid text => pure (.text text)
  | .datetime micros =>
      match requireUtcSeconds micros with
      | some rounded => pure (.text (isoformat (nearestSecond rounded)))
      | none => throw (.search .overflow)

def serializeField : Field → Except SearchError WireValue
  | .value v => serializeValue isoformat v
  | .identity r => pure (.identity r)

def serializeRow (row : ResultRow) (columns : List String) : Except SearchError Item :=
  columns.mapM fun name =>
    match row.get name with
    | none => throw (.runtime "KeyError")
    | some v => do pure (name, ← serializeValue isoformat v)

def liftRuntime {α : Type} : Except String α → Except SearchError α
  | .ok a => pure a
  | .error message => throw (.runtime message)

/-- The mapped row has its columns in the order of the projection. -/
def serializeEnrichedRow (plan : EnrichedReadPlan) (row : ResultRow) :
    Except SearchError Item := do
  let fields ← liftRuntime (mapEnrichedRow row plan)
  fields.mapM fun (name, field) => do pure (name, ← serializeField isoformat field)

end Items

/-! ## The whole call -/

section Execute

variable (E : SearchEnvironment) (tables : Tables)

/-- `id` alone without read permission, and no enrichment then. -/
def searchAttributes (C : RecordClass) (request : SearchRequest) :
    Except SearchError (Attributes × Bool) :=
  let attrs := searchableAttributes C
  if request.idOnlyAttributes then
    match attrs.get "id" with
    | none => throw (.runtime "class searchable attributes missing required 'id'")
    | some attr => pure ([attr], false)
  else pure (attrs, request.enrichFkIdentity)

def plainQuery (C : RecordClass) (columns : List String) (order : List (String × Direction))
    (condition : Fragment × List Value) : SelectQuery where
  scopes := fromTable tables C.nameSnake C.nameSnake
  condition := condition
  orderQualifier := none
  order := order
  selectList := columns.map fun column => ⟨none, column, column⟩

def enrichedQuery (plan : EnrichedReadPlan) (order : List (String × Direction))
    (condition : Fragment × List Value) : SelectQuery where
  scopes := plan.joins.foldl (joinTable E.postgres tables)
    (fromTable tables plan.sourceTable "src")
  condition := condition
  orderQualifier := some "src"
  order := order
  selectList := plan.selectList

def requirePlan (C : RecordClass) (definitionsByName : Option (String → Option LoadedClass))
    (columns : List String) : Except SearchError EnrichedReadPlan :=
  match definitionsByName with
  | none => throw (.runtime "definitions_by_name is required when enrich_fk_identity is true")
  | some index => liftRuntime (buildEnrichedReadPlan index C.toClassDefinition columns)

def liftSearch {α : Type} : Except SearchFailure α → Except SearchError α
  | .ok a => pure a
  | .error failure => throw (.search failure)

/-- `COUNT`, which never joins, then `SELECT`, and the items of its rows. -/
def runSearch (C : RecordClass) (countWhere : Fragment × List Value) (query : SelectQuery)
    (serialize : ResultRow → Except SearchError Item) (execution : Execution)
    (limit offset : ℤ) : Except SearchError SearchResult := do
  let total ← runCount E.postgres (fromTable tables C.nameSnake C.nameSnake) countWhere
    execution
  let rows ← runSelect E.postgres query execution limit offset
  let items ← rows.mapM serialize
  pure { items, limit, offset, total }

def executeSearch (C : RecordClass) (limits : SearchNestingLimits)
    (definitionsByName : Option (String → Option LoadedClass)) (request : SearchRequest)
    (execution : Execution) : Except SearchError SearchResult := do
  let (attrs, enrich) ← searchAttributes C request
  let limit ← resolveLimit request.limit
  let offset ← resolveOffset request.offset
  let columns ← resolveProjection request.attributes attrs
  let order ← resolveSort request.sort attrs
  let cx : CompileContext := { adapters := E.adapters, attrs, limits }
  let countWhere ← liftSearch (compilePredicateRoot cx false request.predicate)
  let selectWhere ← liftSearch (compilePredicateRoot cx enrich request.predicate)
  if enrich then do
    let plan ← requirePlan C definitionsByName columns
    runSearch E tables C countWhere (enrichedQuery E tables plan order selectWhere)
      (serializeEnrichedRow E.isoformat plan) execution limit offset
  else
    runSearch E tables C countWhere (plainQuery tables C columns order selectWhere)
      (fun row => serializeRow E.isoformat row columns) execution limit offset

end Execute

end Untangled.Search
