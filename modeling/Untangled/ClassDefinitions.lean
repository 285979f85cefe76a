import Untangled.PythonText
import Untangled.SchemaPlan

/-!
# Class definitions

Loading and validating the YAML files of class definitions.  A file arrives as
the value its YAML stands for.  Messages of errors leave out the values that they
quote.
-/

namespace Untangled.Mapping

open PythonText Untangled.Schema

/-- A YAML value; a floating-point number is its shortest text and a mapping has
each key once. -/
inductive Yaml
  | null
  | bool (b : Bool)
  | int (i : ℤ)
  | float (text : String)
  | str (s : String)
  | seq (items : List Yaml)
  | map (entries : List (Yaml × Yaml))
  | other

def Yaml.isKey (key : String) : Yaml → Bool
  | .str s => s = key
  | _ => false

def Yaml.isKeyOf (keys : List String) : Yaml → Bool
  | .str s => s ∈ keys
  | _ => false

abbrev Entries := List (Yaml × Yaml)

def lookup (entries : Entries) (key : String) : Option Yaml :=
  (entries.find? fun e => e.1.isKey key).map Prod.snd

inductive Bound
  | int (i : ℤ)
  | float (text : String)
  | decimal (text : String)
  deriving DecidableEq

/-- Characters and the scalar conversions of the standard library; a conversion
that raises gives none. -/
structure Scalars extends CharRules where
  /-- `float` of an integer. -/
  floatOfInt : ℤ → Option String
  /-- `Decimal` of a text, without exponent. -/
  decimal : String → Option String
  /-- `UUID` of a text, hyphenated. -/
  uuid : String → Option String
  exceeds : Bound → Bound → Bool

structure AttributeDefinition where
  nameSnake : String
  typeName : String
  required : Bool
  references : Option String
  unique : Bool
  createDefault : Option AddDefaultValue
  minValue : Option Bound
  maxValue : Option Bound
  idPrefix : Option String
  padWidth : ℤ
  startAt : Option ℤ
  deriving DecidableEq

structure ClassDefinition where
  nameSnake : String
  displayName : String
  description : String
  attributes : List AttributeDefinition
  sourcePath : String
  displayAttribute : Option AttributeDefinition
  isPublic : Bool
  permissions : List String
  checkConstraints : List String
  uniqueConstraints : List (List String)
  deriving DecidableEq

def ClassDefinition.friendlyIdAttr (d : ClassDefinition) : Option AttributeDefinition :=
  d.attributes.find? fun a => a.typeName = "friendly_id"

/-! ## Vocabulary -/

def supportedTypes : List String :=
  ["string", "compact_text", "choice", "status", "text", "multiline_text", "boolean",
    "integer", "float", "decimal", "uuid", "datetime", "friendly_id"]

def textStorageFamily : List String :=
  ["string", "compact_text", "choice", "status", "text", "multiline_text"]

def systemFieldNames : List String :=
  ["id", "created_at", "updated_at", "created_by", "updated_by"]

def defaultFriendlyIdPadWidth : ℤ := 8

def minFriendlyIdPadWidth : ℤ := 4

def clockTokenNames : List String := ["now", "tomorrow"]

def isSnakeCase (R : CharRules) (value : String) : Bool :=
  if value = "" || value ≠ R.lower value then false
  else if '-' ∈ value.toList || value.toList.head? = some '_' ||
      value.toList.getLast? = some '_' || ['_', '_'] <:+: value.toList then false
  else (words value).all fun part => part ≠ [] && part.all R.isAlnum

/-- Go on only if `p` holds. -/
def require (p : Prop) [Decidable p] (message : String) : Except String Unit :=
  if p then pure () else throw message

def requireSnake (R : CharRules) (value label : String) : Except String Unit :=
  require (isSnakeCase R value = true) (label ++ " must be snake_case")

/-! ## Substitution -/

/-- The names that a check constraint may use, with what stands for them. -/
def checkConstraintNames : List (String × String) :=
  [("authz_version_id", "01900000-0000-7000-8000-000000000051"),
    ("system_config_id", "01900000-0000-7000-8000-000000000050")]

def isLowerAscii (c : Char) : Bool := 'a' ≤ c && c ≤ 'z'

def isTokenChar (c : Char) : Bool := isLowerAscii c || ('0' ≤ c && c ≤ '9')

/-- Lower-case words of letters and digits joined by single underscores, the
first with a letter in front. -/
def isTokenName (name : List Char) : Bool :=
  (name.head?.any isLowerAscii) &&
    (name.splitOn '_').all fun part => part ≠ [] && part.all isTokenChar

/-- Replace each name between a dollar sign with a brace and a closing brace by
what it stands for; the first argument is the number of characters. -/
def substitute (available : List (String × String)) :
    ℕ → List Char → Except String (List Char)
  | 0, text => pure text
  | _, [] => pure []
  | fuel + 1, '$' :: '{' :: rest =>
      let name := rest.takeWhile (· ≠ '}')
      let after := rest.dropWhile (· ≠ '}')
      if isTokenName name && after ≠ [] then
        match available.lookup (String.ofList name) with
        | none => throw "substitution is not available in this context"
        | some value => do
            let tail ← substitute available fuel (after.drop 1)
            pure (value.toList ++ tail)
      else do
        let tail ← substitute available fuel ('{' :: rest)
        pure ('$' :: tail)
  | fuel + 1, c :: rest => do
      let tail ← substitute available fuel rest
      pure (c :: tail)

/-! ## Attributes -/

section Attributes

variable (R : Scalars)

/-- `Decimal(str(raw))` of a number or a text. -/
def parseDecimal (label : String) : Yaml → Except String String
  | .int i => (R.decimal (toString i)).elim
      (throw (label ++ " is not a valid decimal")) pure
  | .float text => (R.decimal text).elim
      (throw (label ++ " is not a valid decimal")) pure
  | .str s => (R.decimal s).elim (throw (label ++ " is not a valid decimal")) pure
  | _ => throw (label ++ " must be a decimal string or number")

def parseFloat (label : String) : Yaml → Except String String
  | .int i => (R.floatOfInt i).elim (throw (label ++ " is too large")) pure
  | .float text => pure text
  | _ => throw (label ++ " must be a number")

def parseNumericBound (typeName label : String) (raw : Yaml) : Except String Bound :=
  match raw with
  | .null => throw (label ++ " must not be null; omit the key instead")
  | _ =>
      if typeName = "integer" then
        match raw with
        | .int i => pure (.int i)
        | _ => throw (label ++ " must be an integer")
      else if typeName = "float" then do
        pure (.float (← parseFloat R label raw))
      else do
        pure (.decimal (← parseDecimal R label raw))

def parseOptionalBound (typeName label : String) :
    Option Yaml → Except String (Option Bound)
  | none => pure none
  | some raw => do pure (some (← parseNumericBound R typeName label raw))

def parseMinMax (name typeName : String) (spec : Entries) :
    Except String (Option Bound × Option Bound) :=
  match lookup spec "min_value", lookup spec "max_value" with
  | none, none => pure (none, none)
  | least, greatest =>
      if typeName ∉ ["integer", "float", "decimal"] then
        throw ("attribute '" ++ name ++ "' min_value/max_value are only valid " ++
          "for integer, float, or decimal")
      else do
        let minValue ← parseOptionalBound R typeName (name ++ ".min_value") least
        let maxValue ← parseOptionalBound R typeName (name ++ ".max_value") greatest
        match minValue, maxValue with
        | some low, some high =>
            if R.exceeds low high then
              throw ("attribute '" ++ name ++ "' min_value must be <= max_value")
            else pure (minValue, maxValue)
        | _, _ => pure (minValue, maxValue)

/-- A text that looks like a clock token must be one. -/
def parseDatetimeDefault (label s : String) : Except String AddDefaultValue :=
  let text := stripChars s.toList
  if text = [] then throw (label ++ " must be a non-empty ISO-8601 datetime string")
  else if ['$', '{'] <+: text && ['}'] <:+ text &&
      String.ofList ((text.drop 2).dropLast) ∉ clockTokenNames then
    throw (label ++ " clock token must be now or tomorrow")
  else pure (.str (String.ofList text))

def parseCreateDefault (name typeName : String) (raw : Yaml) :
    Except String AddDefaultValue :=
  let label := "attribute '" ++ name ++ "'.create_default"
  match raw with
  | .null => throw (label ++ " must not be null; omit the key when there is no default")
  | _ =>
      if typeName ∈ textStorageFamily then
        match raw with
        | .str s => pure (.str s)
        | _ => throw (label ++ " must be a string")
      else if typeName = "boolean" then
        match raw with
        | .bool b => pure (.bool b)
        | _ => throw (label ++ " must be a boolean")
      else if typeName = "integer" then
        match raw with
        | .int i => pure (.int i)
        | _ => throw (label ++ " must be an integer")
      else if typeName = "float" then do
        pure (.float (← parseFloat R label raw))
      else if typeName = "decimal" then do
        pure (.str (← parseDecimal R label raw))
      else if typeName = "uuid" then
        match raw with
        | .str s => (R.uuid s).elim (throw (label ++ " is not a valid UUID"))
            fun text => pure (.str text)
        | _ => throw (label ++ " must be a UUID string")
      else if typeName = "datetime" then
        match raw with
        | .str s => parseDatetimeDefault label s
        | _ => throw (label ++ " must be a non-empty ISO-8601 datetime string")
      else throw (label ++ " is not supported")

def parseOptionalCreateDefault (name typeName : String) :
    Option Yaml → Except String (Option AddDefaultValue)
  | none => pure none
  | some raw => do pure (some (← parseCreateDefault R name typeName raw))

def parseType (name : String) (spec : Entries) : Except String String :=
  match lookup spec "type" with
  | some (.str typeName) =>
      if typeName ∈ supportedTypes then pure typeName
      else throw ("attribute '" ++ name ++ "' has unsupported type")
  | _ => throw ("attribute '" ++ name ++ "' has unsupported type")

def parseFlag (spec : Entries) (key label : String) : Except String Bool :=
  match lookup spec key with
  | none => pure false
  | some (.bool b) => pure b
  | some _ => throw (label ++ " must be a boolean")

def parseReferences (name typeName : String) (spec : Entries) :
    Except String (Option String) :=
  match lookup spec "references" with
  | none => pure none
  | some .null => pure none
  | some (.str s) =>
      if strip s = "" then
        throw ("attribute '" ++ name ++ "'.references must be a non-empty string")
      else do
        requireSnake R.toCharRules (strip s) ("attribute '" ++ name ++ "'.references")
        require (typeName = "uuid")
          ("attribute '" ++ name ++ "' with references must have type uuid")
        pure (some (strip s))
  | some _ => throw ("attribute '" ++ name ++ "'.references must be a non-empty string")

def parsePrefix (name : String) (spec : Entries) : Except String String :=
  match lookup spec "prefix" with
  | some (.str s) =>
      if strip s = "" then
        throw ("attribute '" ++ name ++ "'.prefix is required for friendly_id")
      else if R.isAlnumText (strip s) then pure (strip s)
      else throw ("attribute '" ++ name ++ "'.prefix must be alphanumeric")
  | _ => throw ("attribute '" ++ name ++ "'.prefix is required for friendly_id")

/-- An integer of at least `least`, if the key is there. -/
def parseAtLeast (spec : Entries) (key label : String) (least : ℤ) :
    Except String (Option ℤ) :=
  match lookup spec key with
  | none => pure none
  | some (.int i) =>
      if i < least then throw (label ++ " is too small") else pure (some i)
  | some _ => throw (label ++ " must be an integer")

def requireKeys (spec : Entries) (allowed : List String) (label : String) :
    Except String Unit :=
  require (∀ e ∈ spec, e.1.isKeyOf allowed = true) (label ++ " has unknown keys")

def parseAttribute (name : String) (spec : Entries) (friendlyIdSeen : Bool) :
    Except String AttributeDefinition := do
  let typeName ← parseType name spec
  let required ← parseFlag spec "required" ("attribute '" ++ name ++ "'.required")
  let references ← parseReferences R name typeName spec
  let unique ← parseFlag spec "unique" ("attribute '" ++ name ++ "'.unique")
  let createDefault ← parseOptionalCreateDefault R name typeName
    (lookup spec "create_default")
  let (minValue, maxValue) ← parseMinMax R name typeName spec
  if typeName = "friendly_id" then do
    require (friendlyIdSeen = false)
      "at most one friendly_id attribute is allowed per class"
    require (references = none)
      ("attribute '" ++ name ++ "' friendly_id cannot have references")
    require (createDefault = none)
      ("attribute '" ++ name ++ "' friendly_id cannot have create_default")
    let idPrefix ← parsePrefix R name spec
    let padWidth ← parseAtLeast spec "pad_width"
      ("attribute '" ++ name ++ "'.pad_width") minFriendlyIdPadWidth
    let startAt ← parseAtLeast spec "start_at" ("attribute '" ++ name ++ "'.start_at") 1
    requireKeys spec ["type", "required", "prefix", "pad_width", "start_at", "unique"]
      ("attribute '" ++ name ++ "'")
    pure ⟨name, typeName, required, references, true, createDefault, minValue, maxValue,
      some idPrefix, padWidth.getD defaultFriendlyIdPadWidth, startAt⟩
  else do
    require (∀ key ∈ ["prefix", "pad_width", "start_at"],
      (lookup spec key).isNone = true)
      ("attribute '" ++ name ++ "' has friendly_id-only keys")
    requireKeys spec ["type", "required", "references", "unique", "create_default",
      "min_value", "max_value"] ("attribute '" ++ name ++ "'")
    pure ⟨name, typeName, required, references, unique, createDefault, minValue, maxValue,
      none, defaultFriendlyIdPadWidth, none⟩

def parseSpec (name : String) : Yaml → Except String Entries
  | .map spec => pure spec
  | _ => throw ("attribute '" ++ name ++ "' must be a mapping")

/-- The attributes of a class, after those already read. -/
def parseAttributes : Entries → List AttributeDefinition →
    Except String (List AttributeDefinition)
  | [], seen => pure seen
  | (.str name, spec) :: rest, seen => do
      requireSnake R.toCharRules name ("attribute '" ++ name ++ "'")
      require (name ∉ systemFieldNames)
        ("attribute '" ++ name ++ "' conflicts with injected system field")
      require (name ∉ seen.map AttributeDefinition.nameSnake)
        ("duplicate attribute '" ++ name ++ "'")
      let spec ← parseSpec name spec
      let a ← parseAttribute R name spec
        (seen.any fun a => a.typeName = "friendly_id")
      parseAttributes rest (seen ++ [a])
  | _ :: _, _ => throw "attribute keys must be strings"

end Attributes

/-! ## Classes -/

section Classes

variable (R : Scalars)

/-- A required text, stripped. -/
def parseText (entries : Entries) (key : String) : Except String String :=
  match lookup entries key with
  | some (.str s) =>
      if strip s = "" then throw ("'" ++ key ++ "' is required") else pure (strip s)
  | _ => throw ("'" ++ key ++ "' is required")

def resolveDisplayAttribute (attributes : List AttributeDefinition) :
    Option Yaml → Except String (Option AttributeDefinition)
  | none => pure (attributes.find? fun a =>
      a.nameSnake = "display_name" && a.typeName = "compact_text")
  | some .null => pure none
  | some (.str s) =>
      if strip s = "" then throw "display_attribute must be a non-empty name or null"
      else do
        requireSnake R.toCharRules (strip s) "display_attribute"
        match attributes.find? fun a => a.nameSnake = strip s with
        | none => throw "display_attribute does not name a declared attribute"
        | some a =>
            if a.typeName = "compact_text" then pure (some a)
            else throw "display_attribute must have type exactly 'compact_text'"
  | some _ => throw "display_attribute must be a non-empty name or null"

def parsePermissionNames : List Yaml → List String → Except String (List String)
  | [], seen => pure seen
  | .str s :: rest, seen =>
      if strip s = "" then throw "'permissions' entry must be a non-empty string"
      else do
        requireSnake R.toCharRules (strip s) "permissions"
        require (strip s ∉ seen) "duplicate permission name in permissions"
        parsePermissionNames rest (seen ++ [strip s])
  | _ :: _, _ => throw "'permissions' entry must be a non-empty string"

def parsePermissions : Option Yaml → Except String (List String)
  | none => pure []
  | some (.seq items) => parsePermissionNames R items []
  | some _ => throw "'permissions' must be a list of strings"

def parseCheckConstraint : Yaml → Except String String
  | .str s =>
      if strip s = "" then throw "'check_constraint' entry must be a non-empty string"
      else do
        let text ← substitute checkConstraintNames (strip s).length (strip s).toList
        pure (String.ofList text)
  | _ => throw "'check_constraint' entry must be a non-empty string"

def parseCheckConstraints : Option Yaml → Except String (List String)
  | none => pure []
  | some (.str s) => [Yaml.str s].mapM parseCheckConstraint
  | some (.seq items) =>
      if items.isEmpty then throw "'check_constraint' must not be empty"
      else items.mapM parseCheckConstraint
  | some _ => throw "'check_constraint' must be a string or a list of strings"

def parseUniqueColumns (attrNames : List String) :
    List Yaml → List String → Except String (List String)
  | [], columns => pure columns
  | .str s :: rest, columns =>
      if strip s = "" then throw "'unique' column must be a non-empty string"
      else do
        requireSnake R.toCharRules (strip s) "unique"
        require (strip s ∈ attrNames) "'unique' entry references unknown attribute"
        require (strip s ∉ columns) "'unique' entry has duplicate column"
        parseUniqueColumns attrNames rest (columns ++ [strip s])
  | _ :: _, _ => throw "'unique' column must be a non-empty string"

/-- Two lists of columns that name the same set. -/
def sameColumnSet (a b : List String) : Bool :=
  a.all (· ∈ b) && b.all (· ∈ a)

def parseUniqueEntries (attrNames : List String) :
    List Yaml → List (List String) → Except String (List (List String))
  | [], seen => pure seen
  | .seq entry :: rest, seen =>
      if entry.isEmpty then throw "'unique' entry must be a non-empty list"
      else do
        let columns ← parseUniqueColumns R attrNames entry []
        require (∀ other ∈ seen, sameColumnSet columns other = false)
          "duplicate 'unique' constraint on columns"
        parseUniqueEntries attrNames rest (seen ++ [columns])
  | _ :: _, _ => throw "'unique' entry must be a non-empty list"

def parseUniqueConstraints (attributes : List AttributeDefinition) :
    Option Yaml → Except String (List (List String))
  | none => pure []
  | some (.seq items) =>
      if items.isEmpty then throw "'unique' must be a non-empty list"
      else parseUniqueEntries R (attributes.map AttributeDefinition.nameSnake) items []
  | some _ => throw "'unique' must be a non-empty list"

def topLevelKeys : List String :=
  ["name", "display_name", "description", "attributes", "display_attribute", "public",
    "permissions", "check_constraint", "unique"]

def parseAttributeMap : Option Yaml → Except String (List AttributeDefinition)
  | none => pure []
  | some .null => pure []
  | some (.map entries) => parseAttributes R entries []
  | some _ => throw "'attributes' must be a mapping"

/-- A file: its path and the value of its YAML, none where it is not YAML. -/
structure DefinitionFile where
  path : String
  raw : Option Yaml

def loadDefinition (file : DefinitionFile) : Except String ClassDefinition :=
  match file.raw with
  | some (.map raw) => do
      let name ← parseText raw "name"
      requireSnake R.toCharRules name "name"
      let displayName ← parseText raw "display_name"
      let description ← parseText raw "description"
      let attributes ← parseAttributeMap R (lookup raw "attributes")
      requireKeys raw topLevelKeys "definition"
      let displayAttribute ← resolveDisplayAttribute R attributes
        (lookup raw "display_attribute")
      let isPublic ← parseFlag raw "public" "'public'"
      let permissions ← parsePermissions R (lookup raw "permissions")
      require (isPublic = true → "read" ∈ permissions ∨ "search" ∈ permissions)
        "public: true requires declaring 'read' and/or 'search' in permissions"
      let checkConstraints ← parseCheckConstraints (lookup raw "check_constraint")
      let uniqueConstraints ← parseUniqueConstraints R attributes (lookup raw "unique")
      pure ⟨name, displayName, description, attributes, file.path, displayAttribute,
        isPublic, permissions, checkConstraints, uniqueConstraints⟩
  | some _ => throw "root must be a mapping"
  | none => throw "invalid YAML"

/-! ## Definition sets -/

/-- Every class that an attribute references is defined. -/
def ReferencesKnown (definitions : List ClassDefinition) : Prop :=
  ∀ d ∈ definitions, ∀ a ∈ d.attributes, ∀ c ∈ a.references,
    c ∈ definitions.map ClassDefinition.nameSnake

instance (definitions : List ClassDefinition) : Decidable (ReferencesKnown definitions) :=
  inferInstanceAs (Decidable (∀ d ∈ definitions, ∀ a ∈ d.attributes, ∀ c ∈ a.references,
    c ∈ definitions.map ClassDefinition.nameSnake))

def friendlyIdPrefix (a : AttributeDefinition) : Option String :=
  if a.typeName = "friendly_id" then a.idPrefix else none

/-- The prefixes of all friendly ids, in lower case. -/
def prefixKeys (definitions : List ClassDefinition) : List String :=
  definitions.flatMap fun d =>
    (d.attributes.filterMap friendlyIdPrefix).map R.lower

/-- The definitions in the `*.yaml` and `*.yml` files of a directory. -/
def loadDefinitions (directory : Option (List DefinitionFile)) :
    Except String (List ClassDefinition) :=
  match directory with
  | none => throw "definitions directory does not exist"
  | some files =>
      if files.isEmpty then throw "no YAML class definitions found"
      else do
        let definitions ← (files.insertionSort fun a b => a.path ≤ b.path).mapM
          (loadDefinition R)
        require (ReferencesKnown definitions) "attribute references unknown class"
        require (prefixKeys R definitions).Nodup "friendly_id prefix collides"
        pure definitions

def validatePlatformDefinitions (definitions : List ClassDefinition) :
    Except String Unit :=
  match (definitions.filter fun d => d.nameSnake = "user").length with
  | 0 => throw "platform definitions require a system 'user' class"
  | 1 => pure ()
  | _ => throw "platform definitions require exactly one 'user' class"

end Classes

end Untangled.Mapping
