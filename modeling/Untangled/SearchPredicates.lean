import Untangled.DesiredSchema
import Untangled.JsonValues
import Untangled.Records
import Untangled.SearchPatterns
import Untangled.SqlLogic

/-!
# Compiling search predicates

`_compile_predicate_root` and what it calls.  A compiled condition is the list of
its SQL tokens together with the parameters for its placeholders.  Messages of
errors leave out the values that they quote.
-/

namespace Untangled.Search

open Mapping Records SqlExpressions

abbrev Fragment := List (Token Value)

inductive SearchFailure
  | structural (message : String)
  | semantic (message : String)
  /-- `OverflowError` of a datetime. -/
  | overflow
  deriving DecidableEq

/-- Go on only if `p` holds. -/
def ensure (p : Prop) [Decidable p] (failure : SearchFailure) : Except SearchFailure Unit :=
  if p then pure () else throw failure

/-! ## Attributes and values -/

structure SearchableAttribute where
  name : String
  typeName : String
  deriving DecidableEq

/-- A dictionary of attributes by name. -/
abbrev Attributes := List SearchableAttribute

def Attributes.get (attrs : Attributes) (name : String) : Option SearchableAttribute :=
  attrs.find? fun a => a.name = name

def searchableAttributes (C : RecordClass) : Attributes :=
  systemFields.map (fun f => ⟨f.1, f.2⟩) ++
    C.attributes.map fun a => ⟨a.nameSnake, a.typeName⟩

/-- A `datetime`; an aware one is given by its instant in UTC. -/
structure ParsedDatetime where
  aware : Bool
  micros : ℤ
  deriving DecidableEq

/-- `TypeAdapter.validate_python` for each type; none stands for
`ValidationError`. -/
structure TypeAdapters where
  validate : String → Json → Option Value
  validate_typed : ∀ {typeName : String} {raw : Json} {v : Value},
    validate typeName raw = some v → v.hasType typeName = true
  datetime : Json → Option ParsedDatetime

def textFamilySearchTypes : List String :=
  ["string", "compact_text", "choice", "status", "text", "multiline_text"]

def orderedTypes : List String :=
  textFamilySearchTypes ++ ["integer", "float", "decimal", "datetime", "friendly_id"]

def textOrderedTypes : List String := textFamilySearchTypes ++ ["friendly_id"]

def textPatternTypes : List String := textFamilySearchTypes ++ ["friendly_id"]

/-- The types that have an adapter. -/
def adapterTypes : List String :=
  ["string", "compact_text", "choice", "status", "text", "multiline_text", "friendly_id",
    "boolean", "integer", "float", "decimal", "uuid", "datetime"]

/-- The budgets; the callers take them from the system configuration, where none is
below zero. -/
structure SearchNestingLimits where
  maxDepth : ℕ
  maxLength : ℕ
  maxTotalPredicates : ℕ
  maxTotalRegexp : ℕ
  deriving DecidableEq

structure CompileContext where
  adapters : TypeAdapters
  attrs : Attributes
  limits : SearchNestingLimits

/-! ## Operators -/

inductive Connective
  | and
  | or
  deriving DecidableEq

inductive LeafOp
  | compare (c : Comparison)
  | nullCheck (empty : Bool)
  | like (op : LikeOp)
  | regexp
  deriving DecidableEq

inductive Op
  | connective (c : Connective)
  | not
  | leaf (op : LeafOp)
  deriving DecidableEq

def implementedOps : List (String × Op) :=
  [("and", .connective .and), ("or", .connective .or), ("not", .not),
    ("eq", .leaf (.compare .eq)), ("ne", .leaf (.compare .ne)),
    ("gt", .leaf (.compare .gt)), ("gte", .leaf (.compare .ge)),
    ("lt", .leaf (.compare .lt)), ("lte", .leaf (.compare .le)),
    ("empty", .leaf (.nullCheck true)), ("not_empty", .leaf (.nullCheck false)),
    ("contains", .leaf (.like .contains)), ("starts_with", .leaf (.like .startsWith)),
    ("ends_with", .leaf (.like .endsWith)), ("regexp", .leaf .regexp)]

def isValueOp (c : Comparison) : Bool := c = .eq || c = .ne

/-! ## Checks of a node -/

def asObject (message : String) : Json → Except SearchFailure (List (String × Json))
  | .obj members => pure members
  | _ => throw (.structural message)

def readOp (node : List (String × Json)) : Except SearchFailure Op :=
  match member node "op" with
  | none => throw (.structural "predicate node requires 'op'")
  | some (.str name) =>
      match implementedOps.lookup name with
      | some op => pure op
      | none => throw (.semantic "unknown operator")
  | some _ => throw (.semantic "predicate 'op' must be a string")

def unexpectedKeys (node : List (String × Json)) (allowed : List String) :
    Except SearchFailure Unit :=
  ensure (∀ m ∈ node, m.1 ∈ allowed) (.structural "unexpected predicate properties")

def requireAttribute (cx : CompileContext) (node : List (String × Json)) :
    Except SearchFailure SearchableAttribute :=
  match member node "attribute" with
  | none => throw (.structural "comparison predicate requires 'attribute'")
  | some (.str name) =>
      if name = "" then
        throw (.semantic "comparison predicate 'attribute' must be a non-empty string")
      else
        match cx.attrs.get name with
        | some attr => pure attr
        | none => throw (.semantic "unknown attribute")
  | some _ =>
      throw (.semantic "comparison predicate 'attribute' must be a non-empty string")

def requireValue (node : List (String × Json)) : Except SearchFailure Json :=
  match member node "value" with
  | none => throw (.structural "operator requires 'value'")
  | some .null => throw (.semantic
      "operator does not accept value: null; use empty / not_empty for null checks")
  | some raw => pure raw

def requireType (attr : SearchableAttribute) (types : List String) (message : String) :
    Except SearchFailure Unit :=
  ensure (attr.typeName ∈ types) (.semantic message)

def coerceDatetime (cx : CompileContext) (raw : Json) : Except SearchFailure Value :=
  match cx.adapters.datetime raw with
  | none => throw (.semantic "value for attribute is invalid")
  | some parsed =>
      if parsed.aware then
        match requireUtcSeconds parsed.micros with
        | some micros => pure (.datetime micros)
        | none => throw .overflow
      else throw (.semantic "value for attribute must be timezone-aware (UTC)")

def coerceValue (cx : CompileContext) (attr : SearchableAttribute) (raw : Json) :
    Except SearchFailure Value :=
  if attr.typeName ∉ adapterTypes then
    throw (.semantic "unsupported attribute type for search")
  else if attr.typeName = "datetime" then coerceDatetime cx raw
  else
    match cx.adapters.validate attr.typeName raw with
    | some v => pure v
    | none => throw (.semantic "value for attribute is invalid")

/-! ## Leaves -/

section Compile

variable (cx : CompileContext) (qualifySource : Bool)

/-- A column; `src` is the alias of the searched table in an enriched read. -/
def columnRef (name : String) : Fragment :=
  columnTokens (if qualifySource then some "src" else none) name

def compileComparison (c : Comparison) (node : List (String × Json)) :
    Except SearchFailure (Fragment × List Value) := do
  unexpectedKeys node ["op", "attribute", "value"]
  let attr ← requireAttribute cx node
  let raw ← requireValue node
  let typed ← coerceValue cx attr raw
  pure (columnRef qualifySource attr.name ++ [.compare c, .placeholder], [typed])

def compileOrderedComparison (c : Comparison) (node : List (String × Json)) :
    Except SearchFailure (Fragment × List Value) := do
  unexpectedKeys node ["op", "attribute", "value"]
  let attr ← requireAttribute cx node
  requireType attr orderedTypes "operator is not applicable; requires an ordered type"
  let raw ← requireValue node
  let typed ← coerceValue cx attr raw
  let column := columnRef qualifySource attr.name
  let column :=
    if attr.typeName ∈ textOrderedTypes then column ++ [.collate, .ident "C"] else column
  pure (column ++ [.compare c, .placeholder], [typed])

def compileNullCheck (empty : Bool) (node : List (String × Json)) :
    Except SearchFailure (Fragment × List Value) := do
  unexpectedKeys node ["op", "attribute"]
  let attr ← requireAttribute cx node
  let column := columnRef qualifySource attr.name
  if empty then pure (column ++ [.is, .null], [])
  else pure (column ++ [.is, .not, .null], [])

/-- The `LIKE` operators, or `regexp` if there is none. -/
def compileTextPattern (op : Option LikeOp) (node : List (String × Json)) :
    Except SearchFailure (Fragment × List Value) := do
  unexpectedKeys node ["op", "attribute", "value"]
  let attr ← requireAttribute cx node
  requireType attr textPatternTypes
    "operator is not applicable; requires a text-family type or friendly_id"
  let raw ← requireValue node
  let typed ← coerceValue cx attr raw
  match typed with
  | .text s =>
      let column := columnRef qualifySource attr.name
      match op with
      | none => pure (column ++ [.tilde, .placeholder], [typed])
      | some op =>
          pure (column ++ [.like, .placeholder, .escape, .literal "\\"],
            [.text (op.pattern s)])
  | _ => throw (.semantic "value for attribute must be a string for operator")

def compileLeaf (op : LeafOp) (node : List (String × Json)) :
    Except SearchFailure (Fragment × List Value) :=
  match op with
  | .compare c =>
      if isValueOp c then compileComparison cx qualifySource c node
      else compileOrderedComparison cx qualifySource c node
  | .like op => compileTextPattern cx qualifySource (some op) node
  | .regexp => compileTextPattern cx qualifySource none node
  | .nullCheck empty => compileNullCheck cx qualifySource empty node

/-! ## The tree -/

/-- The parameter list and the counters of `_CompileBudget`. -/
structure CompileState where
  params : List Value
  totalPredicates : ℕ
  totalRegexp : ℕ
  deriving DecidableEq

def CompileState.initial : CompileState where
  params := []
  totalPredicates := 0
  totalRegexp := 0

def countNode (limits : SearchNestingLimits) (op : Op) (st : CompileState) :
    Except SearchFailure CompileState := do
  let st := { st with totalPredicates := st.totalPredicates + 1 }
  ensure (st.totalPredicates ≤ limits.maxTotalPredicates)
    (.semantic "predicate tree exceeds maximum of total predicates")
  if op = .leaf .regexp then
    let st := { st with totalRegexp := st.totalRegexp + 1 }
    ensure (st.totalRegexp ≤ limits.maxTotalRegexp)
      (.semantic "predicate tree exceeds maximum of regexp predicates")
    pure st
  else pure st

abbrev ChildCompiler := Json → CompileState → Except SearchFailure (Fragment × CompileState)

/-- Children from left to right, with one state handed through. -/
def compileChildren (child : ChildCompiler) :
    List Json → CompileState → Except SearchFailure (List Fragment × CompileState)
  | [], st => pure ([], st)
  | node :: nodes, st => do
      let (part, st) ← child node st
      let (parts, st) ← compileChildren child nodes st
      pure (part :: parts, st)

def Connective.token : Connective → Token Value
  | .and => .and
  | .or => .or

def compileLogicalList (c : Connective) (node : List (String × Json)) (st : CompileState)
    (child : ChildCompiler) : Except SearchFailure (Fragment × CompileState) := do
  unexpectedKeys node ["op", "predicates"]
  match member node "predicates" with
  | some (.arr children) =>
      ensure (children ≠ []) (.structural "requires a non-empty 'predicates' array")
      ensure (children.length ≤ cx.limits.maxLength)
        (.semantic "'predicates' length exceeds maximum")
      let (parts, st) ← compileChildren child children st
      pure ([.lparen] ++ [c.token].intercalate parts ++ [.rparen], st)
  | _ => throw (.structural "requires a non-empty 'predicates' array")

def compileNot (node : List (String × Json)) (st : CompileState) (child : ChildCompiler) :
    Except SearchFailure (Fragment × CompileState) := do
  unexpectedKeys node ["op", "predicate"]
  match member node "predicate" with
  | none => throw (.structural "'not' requires a 'predicate' child")
  | some inner =>
      let (fragment, st) ← child inner st
      pure ([.not, .lparen] ++ fragment ++ [.rparen], st)

/-- `_compile_predicate`; `levels` is `max_depth - depth + 1`, so the recursion ends
at the check of the depth. -/
def compilePredicate : ℕ → ChildCompiler
  | 0, _, _ => throw (.semantic "predicate nesting depth exceeds maximum")
  | levels + 1, node, st => do
      let node ← asObject "each predicate node must be an object" node
      let op ← readOp node
      let st ← countNode cx.limits op st
      match op with
      | .connective c => compileLogicalList cx c node st (compilePredicate levels)
      | .not => compileNot node st (compilePredicate levels)
      | .leaf op => do
          let (fragment, added) ← compileLeaf cx qualifySource op node
          pure (fragment, { st with params := st.params ++ added })

def compilePredicateRoot (predicate : Json) : Except SearchFailure (Fragment × List Value) :=
  match predicate with
  | .null => pure ([.true], [])
  | .obj members => do
      let (compiled, st) ←
        compilePredicate cx qualifySource cx.limits.maxDepth (.obj members) .initial
      pure (compiled, st.params)
  | _ => throw (.structural "predicate must be an object or null")

end Compile

end Untangled.Search
