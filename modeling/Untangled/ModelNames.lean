import Mathlib
import Untangled.CaseMapping
import Untangled.GeneratedNames
import Untangled.LoadedNames

/-!
# Names of the generated models

`snake_to_pascal` runs the words of a class name together with capital first letters,
and the emitters append the variants.  Neither step is injective, what is in snake case
need not be an identifier, and Python compares identifiers in their normal form: the
condition under which the emitted names are distinct and usable and the barrel modules
export every model.
-/

namespace Untangled.Mapping

open PythonText Untangled.Schema

/-- What the character tables say of case and of identifiers. -/
structure NameRules extends Scalars, CaseTables where
  /-- The characters an identifier may begin with. -/
  identStart : Char → Bool
  /-- The characters an identifier may go on with. -/
  identContinue : Char → Bool
  lower_eq : ∀ s, lower s = String.ofList (toCaseTables.lowerText s.toList)
  start_continue : ∀ c, identStart c = true → identContinue c = true
  start_ascii : ∀ c, c.toNat < 128 → identStart c = (c.isAlpha || c = '_')
  continue_ascii : ∀ c, c.toNat < 128 → identContinue c = (c.isAlphanum || c = '_')
  title_ascii : ∀ c, c.toNat < 128 → title c = [c.toUpper]
  /-- The title case of a lower-case letter is no ASCII lower-case letter, and it may
  begin an identifier if the letter may. -/
  title_start : ∀ c, isAlnum c = true → toCaseTables.Lowered c →
    ∃ d ds, title c = d :: ds ∧ identStart d = identStart c ∧ d.isLower = false
  title_continue : ∀ c, isAlnum c = true → toCaseTables.Lowered c →
    (title c).all identContinue = identContinue c
  /-- The normal form KC. -/
  nfkc : List Char → List Char
  nfkc_nfkc : ∀ s, nfkc (nfkc s) = nfkc s
  /-- ASCII is in normal form and composes with nothing in front of it. -/
  nfkc_append : ∀ s t, (∀ c ∈ t, c.toNat < 128) → nfkc (s ++ t) = nfkc s ++ t

section Emitters

variable (N : NameRules)

def snakeToPascal (value : String) : String :=
  if value = "" then value
  else String.ofList (((words value).filter (· ≠ [])).flatMap N.capitalize)

/-- A class of a Pydantic module with the fields it declares. -/
structure EmittedModel where
  name : String
  fields : List String
  deriving DecidableEq

def ClassDefinition.writable (d : ClassDefinition) : List AttributeDefinition :=
  d.attributes.filter fun a => a.typeName ≠ "friendly_id"

def emitFullModel (d : ClassDefinition) (className : String) : EmittedModel :=
  ⟨className, systemFields.map Prod.fst ++ d.attributes.map AttributeDefinition.nameSnake⟩

def emitWriteModel (className : String) (writable : List AttributeDefinition)
    (variant : String) : EmittedModel :=
  ⟨className ++ variant, writable.map AttributeDefinition.nameSnake⟩

def emitPydanticModule (d : ClassDefinition) : List EmittedModel :=
  let className := snakeToPascal N d.nameSnake
  [emitFullModel d className, emitWriteModel className d.writable "Create",
    emitWriteModel className d.writable "Update"]

/-- The names a Zod module exports. -/
def emitZodModule (d : ClassDefinition) : List String :=
  let pascal := snakeToPascal N d.nameSnake
  [pascal ++ "Schema", pascal, pascal ++ "CreateSchema", pascal ++ "Create",
    pascal ++ "UpdateSchema", pascal ++ "Update"]

/-! ## The written files -/

instance {α : Type} : Named (String × α) := ⟨Prod.fst⟩

/-- A file of the Python directory. -/
inductive PythonFile
  | models (classes : List EmittedModel)
  /-- The modules of the barrel with the names it takes from each. -/
  | barrel (imports : List (String × List String))
  /-- The constants of `well_known.py`. -/
  | wellKnown
  deriving DecidableEq

/-- A file of the TypeScript directory. -/
inductive ZodFile
  | models (exports : List String)
  /-- The modules the barrel exports. -/
  | barrel (stems : List String)
  | fieldMeta
  | wellKnown
  deriving DecidableEq

def pydanticExports (definitions : List ClassDefinition) : List (String × List String) :=
  definitions.map fun d =>
    let className := snakeToPascal N d.nameSnake
    (d.nameSnake, [className, className ++ "Create", className ++ "Update"])

def writePydanticModels (definitions : List ClassDefinition) :
    List (String × PythonFile) :=
  (definitions.map fun d => (d.nameSnake ++ ".py", .models (emitPydanticModule N d))) ++
    [("__init__.py", .barrel (pydanticExports N definitions))]

def writeZodModels (definitions : List ClassDefinition) : List (String × ZodFile) :=
  (definitions.map fun d => (d.nameSnake ++ ".ts", .models (emitZodModule N d))) ++
    [("index.ts", .barrel (definitions.map ClassDefinition.nameSnake))]

/-- What `generate_models` writes to the Python directory, in order. -/
def pythonFiles (definitions : List ClassDefinition) : List (String × PythonFile) :=
  writePydanticModels N definitions ++ [("well_known.py", .wellKnown)]

/-- What `generate_models` writes to the TypeScript directory, in order. -/
def zodFiles (definitions : List ClassDefinition) : List (String × ZodFile) :=
  writeZodModels N definitions ++
    [("field_meta.ts", .fieldMeta), ("well_known.ts", .wellKnown)]

/-! ## The barrel modules -/

/-- A name as Python compares it. -/
def pythonName (name : String) : String :=
  String.ofList (N.nfkc name.toList)

/-- The class that `from .stem import name` binds, with the file it is in. -/
def importName (files : List (String × PythonFile)) (stem name : String) :
    Except String (String × String × EmittedModel) :=
  match byName files (pythonName N stem ++ ".py") with
  | some (path, .models classes) =>
      match byName (classes.map fun model => (pythonName N model.name, model))
        (pythonName N name) with
      | some (bound, model) => .ok (bound, path, model)
      | none => .error "cannot import name"
  | some _ => .error "cannot import name"
  | none => .error "no module"

/-- What is bound once `__init__.py` has run. -/
def pythonBarrel (files : List (String × PythonFile)) :
    Except String (List (String × String × EmittedModel)) :=
  match byName files "__init__.py" with
  | some (_, .barrel imports) =>
      (imports.flatMap fun (stem, names) => names.map (stem, ·)).mapM
        fun (stem, name) => importName N files stem name
  | _ => .error "no module"

def moduleExports (files : List (String × ZodFile)) (stem : String) : List String :=
  match byName files (stem ++ ".ts") with
  | some (_, .models exports) => exports
  | _ => []

/-- The names that `index.ts` passes on, each with the file it is from. -/
def zodBarrel (files : List (String × ZodFile)) : List (String × String) :=
  match byName files "index.ts" with
  | some (_, .barrel stems) =>
      stems.flatMap fun stem => (moduleExports files stem).map (·, stem ++ ".ts")
  | _ => []

/-- The barrel exports the name from that file; a name from two files is exported from
neither. -/
def Exported (files : List (String × ZodFile)) (name path : String) : Prop :=
  (name, path) ∈ zodBarrel files ∧ ∀ other, (name, other) ∈ zodBarrel files → other = path

/-! ## Identifiers -/

def isIdentifierText : List Char → Bool
  | [] => false
  | c :: s => N.identStart c && s.all N.identContinue

/-- `str.isidentifier` -/
def isIdentifier (name : String) : Bool :=
  isIdentifierText N name.toList

def pythonKeywords : List String :=
  ["False", "None", "True", "and", "as", "assert", "async", "await", "break", "class",
    "continue", "def", "del", "elif", "else", "except", "finally", "for", "from",
    "global", "if", "import", "in", "is", "lambda", "nonlocal", "not", "or", "pass",
    "raise", "return", "try", "while", "with", "yield"]

/-- A valid identifier that is not reserved. -/
structure Usable (name : String) : Prop where
  identifier : isIdentifier N name = true
  free : name ∉ pythonKeywords

/-- The emitted names are distinct over the whole set, the barrel modules export every
model, and the names are usable. -/
structure ModelNamesUsable (definitions : List ClassDefinition) : Prop where
  classNames :
    (((pydanticExports N definitions).flatMap Prod.snd).map (pythonName N)).Nodup
  exportNames : (definitions.flatMap (emitZodModule N)).Nodup
  pythonModels : ∃ bound, pythonBarrel N (pythonFiles N definitions) = .ok bound ∧
    ∀ d ∈ definitions, ∀ model ∈ emitPydanticModule N d,
      byName bound (pythonName N model.name) =
        some (pythonName N model.name, d.nameSnake ++ ".py", model)
  zodModels : ∀ d ∈ definitions, ∀ name ∈ emitZodModule N d,
    Exported (zodFiles N definitions) name (d.nameSnake ++ ".ts")
  modules : ∀ d ∈ definitions, Usable N d.nameSnake
  classes : ∀ d ∈ definitions, ∀ model ∈ emitPydanticModule N d, Usable N model.name
  fields : ∀ d ∈ definitions, ∀ model ∈ emitPydanticModule N d, ∀ field ∈ model.fields,
    Usable N field

/-! ## Names that are alike -/

/-- A word with its first letter in title case. -/
def headed : List Char → List Char
  | [] => []
  | c :: s => N.title c ++ s

/-- The words run together, each with its first letter in title case. -/
def joined (name : String) : List Char :=
  (words name).flatMap (headed N)

/-- The two names are the same once the words are run together. -/
def Alike (name name' : String) : Prop :=
  joined N name = joined N name'

/-- The two names are the same to Python once the words are run together. -/
def AlikeInPython (name name' : String) : Prop :=
  N.nfkc (joined N name) = N.nfkc (joined N name')

/-- The words that the emitters append to the name of a model. -/
def modelVariants : List String :=
  ["create", "update"]

/-- The words that the emitters append to an exported name. -/
def exportVariants : List String :=
  ["create", "update", "schema", "create_schema", "update_schema"]

/-- The class name alone and with the words the emitters append. -/
def derivedNames (variants : List String) (name : String) : List String :=
  name :: variants.map fun variant => name ++ "_" ++ variant

/-- Neither name is alike the other or a name derived from it. -/
def Apart (alike : String → String → Prop) (variants : List String)
    (name name' : String) : Prop :=
  (∀ derived ∈ derivedNames variants name, ¬ alike derived name') ∧
    ∀ derived ∈ derivedNames variants name', ¬ alike name derived

/-- The modules that the generator writes over. -/
def takenStems : List String :=
  ["index", "field_meta", "well_known"]

/-- No two classes have names that run together alike, the names of the classes are in
normal form and free of the generator's own files, and the names of the classes and
attributes are identifiers. -/
structure ModelNamesApart (definitions : List ClassDefinition) : Prop where
  apart : definitions.Pairwise fun d e =>
    Apart (Alike N) exportVariants d.nameSnake e.nameSnake
  pythonApart : definitions.Pairwise fun d e =>
    Apart (AlikeInPython N) modelVariants d.nameSnake e.nameSnake
  normal : ∀ d ∈ definitions, pythonName N d.nameSnake = d.nameSnake
  files : ∀ d ∈ definitions, d.nameSnake ∉ takenStems
  classes : ∀ d ∈ definitions, Usable N d.nameSnake
  constants : ∀ d ∈ definitions, ∀ constant ∈ ["false", "none", "true"],
    ¬ Alike N d.nameSnake constant
  attributes : ∀ d ∈ definitions, ∀ a ∈ d.attributes, Usable N a.nameSnake

end Emitters

/-! ## Names in snake case -/

section Snake

variable {N : NameRules} {name : String}

/-- A name is its words with underscores between them. -/
theorem toList_of_words {w : List Char} {ws : List (List Char)}
    (hwords : words name = w :: ws) :
    name.toList = w ++ ws.flatMap ('_' :: ·) := by
  have hjoin : ∀ (v : List Char) (vs : List (List Char)),
      ['_'].intercalate (v :: vs) = v ++ vs.flatMap ('_' :: ·) := by
    intro v vs
    induction vs generalizing v with
    | nil => simp [List.intercalate]
    | cons next vs ih =>
        rw [List.intercalate_cons_cons, ih, List.flatMap_cons]
        simp
  have hname : ['_'].intercalate (name.toList.splitOn '_') = name.toList :=
    List.intercalate_splitOn '_'
  rw [show name.toList.splitOn '_' = w :: ws from hwords, hjoin] at hname
  exact hname.symm

theorem mem_of_mem_words {w : List Char} (hw : w ∈ words name) {c : Char}
    (hc : c ∈ w) : c ∈ name.toList := by
  cases hwords : words name with
  | nil => exact absurd hwords (words_ne_nil name)
  | cons v vs =>
      rw [toList_of_words hwords]
      rw [hwords] at hw
      rcases List.mem_cons.mp hw with rfl | hw
      · exact List.mem_append_left _ hc
      · apply List.mem_append_right
        exact List.mem_flatMap.mpr ⟨w, hw, List.mem_cons_of_mem _ hc⟩

/-- What the snake-case test says of the words of a name. -/
structure SnakeWords (N : NameRules) (name : String) : Prop where
  lowered : ∀ c ∈ name.toList, N.Lowered c
  nonempty : ∀ w ∈ words name, w ≠ []
  alnum : ∀ w ∈ words name, ∀ c ∈ w, N.isAlnum c = true

theorem snakeWords (hsnake : isSnakeCase N.toCharRules name = true) :
    SnakeWords N name := by
  unfold isSnakeCase at hsnake
  split at hsnake
  · cases hsnake
  · rename_i hlower
    split at hsnake
    · cases hsnake
    · simp only [Bool.or_eq_true, decide_eq_true_eq, not_or, not_not] at hlower
      simp only [List.all_eq_true, Bool.and_eq_true, decide_eq_true_eq] at hsnake
      refine ⟨?_, fun w hw => (hsnake w hw).1, fun w hw => (hsnake w hw).2⟩
      apply @CaseTables.lowered_of_lowerFrom N.toCaseTables []
      have heq := hlower.2.symm
      rw [N.lower_eq] at heq
      have hlist := congrArg String.toList heq
      rw [String.toList_ofList] at hlist
      exact hlist

/-- Pascal case is the words run together, each with its first letter in title case. -/
theorem toList_snakeToPascal (h : SnakeWords N name) (hname : name ≠ "") :
    (snakeToPascal N name).toList = joined N name := by
  have hfilter : (words name).filter (· ≠ []) = words name :=
    List.filter_eq_self.mpr fun w hw => by simpa using h.nonempty w hw
  rw [snakeToPascal, if_neg hname, String.toList_ofList, hfilter]
  apply List.flatMap_congr
  intro w hw
  cases w with
  | nil => exact absurd rfl (h.nonempty [] hw)
  | cons c s =>
      have htail : ∀ d ∈ s, N.Lowered d := fun d hd =>
        h.lowered d (mem_of_mem_words hw (List.mem_cons_of_mem c hd))
      exact N.capitalize_of_lowered htail

end Snake

/-! ## Which names are identifiers -/

section Identifiers

variable {N : NameRules} {name : String}

theorem isIdentifierText_append {l s : List Char} (hl : l ≠ [])
    (hs : s.all N.identContinue = true) :
    isIdentifierText N (l ++ s) = isIdentifierText N l := by
  cases l with
  | nil => exact absurd rfl hl
  | cons c t =>
      rw [List.cons_append, isIdentifierText, isIdentifierText, List.all_append, hs,
        Bool.and_true]

theorem headed_all {w : List Char} (hlowered : ∀ c ∈ w, N.Lowered c)
    (halnum : ∀ c ∈ w, N.isAlnum c = true) :
    (headed N w).all N.identContinue = w.all N.identContinue := by
  cases w with
  | nil => rfl
  | cons c s =>
      have hc := N.title_continue c (halnum c (.head _)) (hlowered c (.head _))
      rw [headed, List.all_append, hc, List.all_cons]

theorem underscore_continue : N.identContinue '_' = true := by
  rw [N.continue_ascii '_' (by decide)]
  decide

/-- The words after the first keep or break an identifier either way. -/
theorem headed_words_all {ws : List (List Char)}
    (hlowered : ∀ w ∈ ws, ∀ c ∈ w, N.Lowered c)
    (halnum : ∀ w ∈ ws, ∀ c ∈ w, N.isAlnum c = true) :
    (ws.flatMap (headed N)).all N.identContinue =
      (ws.flatMap ('_' :: ·)).all N.identContinue := by
  induction ws with
  | nil => rfl
  | cons w ws ih =>
      have hrest := ih (fun v hv => hlowered v (.tail _ hv))
        fun v hv => halnum v (.tail _ hv)
      have hw := headed_all (hlowered w (.head _)) (halnum w (.head _))
      rw [List.flatMap_cons, List.flatMap_cons, List.all_append, List.all_append, hw,
        hrest, List.all_cons, underscore_continue, Bool.true_and]

/-- Running the words together neither makes an identifier nor spoils one. -/
theorem isIdentifierText_headed (h : SnakeWords N name) :
    isIdentifierText N (joined N name) = isIdentifier N name := by
  unfold joined
  have hlowered : ∀ w ∈ words name, ∀ c ∈ w, N.Lowered c :=
    fun w hw c hc => h.lowered c (mem_of_mem_words hw hc)
  cases hwords : words name with
  | nil => exact absurd hwords (words_ne_nil name)
  | cons w ws =>
      have hnonempty := h.nonempty
      have halnum := h.alnum
      rw [hwords] at hlowered hnonempty halnum
      have hrest := headed_words_all (fun v hv => hlowered v (.tail _ hv))
        fun v hv => halnum v (.tail _ hv)
      cases w with
      | nil => exact absurd rfl (hnonempty [] (.head _))
      | cons c s =>
          have hc := halnum _ (.head _) c (.head _)
          have hlow := hlowered _ (.head _) c (.head _)
          rcases N.title_start c hc hlow with ⟨d, ds, htitle, hstart, _⟩
          have hall := N.title_continue c hc hlow
          rw [htitle, List.all_cons] at hall
          rw [isIdentifier, toList_of_words hwords, List.flatMap_cons, headed, htitle]
          simp only [List.cons_append, isIdentifierText, List.all_append, hstart, hrest]
          cases hbegins : N.identStart c with
          | false => rfl
          | true =>
              rw [N.start_continue c hbegins, Bool.and_eq_true] at hall
              rw [hall.2, Bool.true_and, Bool.and_assoc]

/-- The first letter of a name in Pascal case is no ASCII lower-case letter. -/
theorem headed_head (h : SnakeWords N name) :
    ∃ d ds, joined N name = d :: ds ∧ d.isLower = false := by
  unfold joined
  cases hwords : words name with
  | nil => exact absurd hwords (words_ne_nil name)
  | cons w ws =>
      have hmem : w ∈ words name := by
        rw [hwords]
        exact .head _
      cases w with
      | nil => exact absurd rfl (h.nonempty [] hmem)
      | cons c s =>
          have hlow := h.lowered c (mem_of_mem_words hmem (.head _))
          rcases N.title_start c (h.alnum _ hmem c (.head _)) hlow with
            ⟨d, ds, htitle, _, hcase⟩
          exact ⟨d, ds ++ s ++ ws.flatMap (headed N), by simp [headed, htitle], hcase⟩

/-- ASCII letters, digits and underscores. -/
def isAsciiWord (s : List Char) : Bool :=
  s.all fun c => decide (c.toNat < 128) && (c.isAlphanum || c = '_')

theorem isAsciiWord_spec {s : List Char} (h : isAsciiWord s = true) :
    ∀ c ∈ s, c.toNat < 128 ∧ N.identContinue c = true := by
  intro c hc
  have hword := List.all_eq_true.mp h c hc
  simp only [Bool.and_eq_true, decide_eq_true_eq] at hword
  rw [N.continue_ascii c hword.1]
  exact hword

def isAsciiIdentifier (name : String) : Bool :=
  isAsciiWord name.toList && name.toList.head?.any fun c => c.isAlpha || c = '_'

theorem isIdentifier_ascii (h : isAsciiIdentifier name = true) :
    isIdentifier N name = true := by
  unfold isAsciiIdentifier at h
  unfold isIdentifier
  cases hname : name.toList with
  | nil => simp [hname] at h
  | cons c s =>
      rw [hname, Bool.and_eq_true, List.head?_cons, Option.any_some] at h
      have hword := @isAsciiWord_spec N _ h.1
      rw [isIdentifierText, N.start_ascii c (hword c (.head _)).1, h.2, Bool.true_and,
        List.all_eq_true]
      intro d hd
      exact (hword d (.tail _ hd)).2

end Identifiers

/-! ## Which names run together alike -/

section Variants

variable {N : NameRules} {name name' : String}

def headedAscii : List Char → List Char
  | [] => []
  | c :: s => c.toUpper :: s

theorem headed_ascii (hascii : ∀ w ∈ words name, isAsciiWord w = true) :
    joined N name = (words name).flatMap headedAscii := by
  apply List.flatMap_congr
  intro w hw
  cases w with
  | nil => rfl
  | cons c s =>
      have hword := @isAsciiWord_spec N _ (hascii _ hw)
      rw [headed, N.title_ascii c (hword c (.head _)).1]
      rfl

/-- What stands behind the name of a class in the names derived from it. -/
def endings (variants : List String) : List (List Char) :=
  [] :: variants.map fun variant => (words variant).flatMap headedAscii

theorem joined_variant {variant : String} (hvariant : variant ∈ exportVariants) :
    joined N (name ++ "_" ++ variant) =
      joined N name ++ (words variant).flatMap headedAscii := by
  have hascii : ∀ variant ∈ exportVariants, ∀ w ∈ words variant, isAsciiWord w = true := by
    decide
  rw [← headed_ascii (hascii variant hvariant), joined, joined, joined, words_join,
    List.flatMap_append]

theorem endings_exportVariants : endings exportVariants =
    [[], "Create".toList, "Update".toList, "Schema".toList, "CreateSchema".toList,
      "UpdateSchema".toList] := by
  decide

theorem endings_modelVariants :
    endings modelVariants = [[], "Create".toList, "Update".toList] := by
  decide

/-- Names that are run together by `run`, where a derived name keeps the text of the
class and adds an ending. -/
structure RunTogether (run : String → List Char) (variants : List String) : Prop where
  derived : ∀ name, (derivedNames variants name).map run =
    (endings variants).map (run name ++ ·)
  cut : ∀ s ∈ endings variants, ∀ t ∈ endings variants, t <:+ s →
    s.take (s.length - t.length) ∈ endings variants

namespace RunTogether

variable {run : String → List Char} {variants : List String}

theorem mem_endings_of_append (h : RunTogether run variants) {s t a : List Char}
    (hs : s ∈ endings variants) (ht : t ∈ endings variants) (heq : s = a ++ t) :
    a ∈ endings variants := by
  have hmem := h.cut s hs t ht ⟨a, heq.symm⟩
  rw [heq] at hmem
  simpa using hmem

/-- An ending after one name makes a name derived from it. -/
theorem exists_derived (h : RunTogether run variants) {s : List Char}
    (hs : s ∈ endings variants) :
    ∃ derived ∈ derivedNames variants name, run derived = run name ++ s := by
  have hmem : run name ++ s ∈ (derivedNames variants name).map run := by
    rw [h.derived]
    exact List.mem_map.mpr ⟨s, hs, rfl⟩
  exact List.mem_map.mp hmem

theorem exists_ending (h : RunTogether run variants) {derived : String}
    (hderived : derived ∈ derivedNames variants name) :
    ∃ s ∈ endings variants, run derived = run name ++ s := by
  have hmem : run derived ∈ (derivedNames variants name).map run :=
    List.mem_map.mpr ⟨derived, hderived, rfl⟩
  rw [h.derived] at hmem
  rcases List.mem_map.mp hmem with ⟨s, hs, heq⟩
  exact ⟨s, hs, heq.symm⟩

/-- If two emitted names are equal, one of the two endings ends in the other. -/
theorem apart_iff (h : RunTogether run variants) :
    Apart (fun a b => run a = run b) variants name name' ↔
      ∀ s ∈ endings variants, ∀ t ∈ endings variants,
        run name ++ s ≠ run name' ++ t := by
  constructor
  · intro hapart s hs t ht heq
    rcases List.append_eq_append_iff.mp heq with ⟨a, hname, hcut⟩ | ⟨a, hname, hcut⟩
    · rcases h.exists_derived (h.mem_endings_of_append hs ht hcut)
        with ⟨derived, hderived, hrun⟩
      exact hapart.1 derived hderived (hrun.trans hname.symm)
    · rcases h.exists_derived (h.mem_endings_of_append ht hs hcut)
        with ⟨derived, hderived, hrun⟩
      exact hapart.2 derived hderived (hname.trans hrun.symm)
  · intro hne
    constructor
    · intro derived hderived halike
      rcases h.exists_ending hderived with ⟨s, hs, hrun⟩
      apply hne s hs [] (.head _)
      rw [List.append_nil, ← hrun]
      exact halike
    · intro derived hderived halike
      rcases h.exists_ending hderived with ⟨s, hs, hrun⟩
      apply hne [] (.head _) s hs
      rw [List.append_nil, ← hrun]
      exact halike

end RunTogether

theorem derivedNames_map {run : String → List Char} {variants : List String}
    (h : ∀ variant ∈ variants, run (name ++ "_" ++ variant) =
      run name ++ (words variant).flatMap headedAscii) :
    (derivedNames variants name).map run = (endings variants).map (run name ++ ·) := by
  rw [derivedNames, endings, List.map_cons, List.map_cons, List.append_nil,
    List.map_map, List.map_map]
  congr 1
  apply List.map_congr_left
  exact h

theorem runTogether_joined : RunTogether (joined N) exportVariants where
  derived name := derivedNames_map fun _ hvariant => joined_variant hvariant
  cut := by
    rw [endings_exportVariants]
    decide +kernel

theorem runTogether_nfkc :
    RunTogether (fun name => N.nfkc (joined N name)) modelVariants where
  derived name := by
    have hvariants : ∀ variant ∈ modelVariants, variant ∈ exportVariants ∧
        isAsciiWord ((words variant).flatMap headedAscii) = true := by
      decide
    apply derivedNames_map
    intro variant hvariant
    have hmem := hvariants variant hvariant
    show N.nfkc (joined N (name ++ "_" ++ variant)) = _
    rw [joined_variant hmem.1]
    apply N.nfkc_append
    exact fun c hc => (@isAsciiWord_spec N _ hmem.2 c hc).1
  cut := by
    rw [endings_modelVariants]
    decide

end Variants

/-! ## The emitted names -/

section Emitted

variable {N : NameRules} {definitions : List ClassDefinition} {d : ClassDefinition}

theorem nodup_flatMap_suffixes {S : List (List Char)} (hS : S.Nodup)
    (stem : ClassDefinition → List Char) :
    (definitions.flatMap fun d => S.map (stem d ++ ·)).Nodup ↔
      definitions.Pairwise fun d e => ∀ s ∈ S, ∀ t ∈ S, stem d ++ s ≠ stem e ++ t := by
  rw [List.nodup_flatMap]
  constructor
  · intro h
    refine h.2.imp ?_
    intro d e hdisjoint s hs t ht heq
    have ht' : stem d ++ s ∈ S.map (stem e ++ ·) := List.mem_map.mpr ⟨t, ht, heq.symm⟩
    exact hdisjoint (List.mem_map.mpr ⟨s, hs, rfl⟩) ht'
  · intro h
    refine ⟨fun d _ => hS.map (List.append_right_injective (stem d)), h.imp ?_⟩
    intro d e hne x hx hx'
    rcases List.mem_map.mp hx with ⟨s, hs, rfl⟩
    rcases List.mem_map.mp hx' with ⟨t, ht, heq⟩
    exact hne s hs t ht heq.symm

/-- The names of one class, as its words run together with what is appended. -/
theorem emitZodModule_toList (hsnake : isSnakeCase N.toCharRules d.nameSnake = true) :
    ((emitZodModule N d).map String.toList).Perm
      ((endings exportVariants).map (joined N d.nameSnake ++ ·)) := by
  have hpascal := toList_snakeToPascal (snakeWords hsnake) (isSnakeCase_ne_empty hsnake)
  have hperm : ["Schema".toList, [], "CreateSchema".toList, "Create".toList,
      "UpdateSchema".toList, "Update".toList].Perm (endings exportVariants) := by
    rw [endings_exportVariants]
    decide +kernel
  have hnames : (emitZodModule N d).map String.toList =
      ["Schema".toList, [], "CreateSchema".toList, "Create".toList,
        "UpdateSchema".toList, "Update".toList].map (joined N d.nameSnake ++ ·) := by
    simp only [emitZodModule, List.map_cons, List.map_nil, String.toList_append, hpascal,
      List.append_nil]
  rw [hnames]
  exact hperm.map _

theorem pythonName_toList (hsnake : isSnakeCase N.toCharRules d.nameSnake = true) :
    ((emitPydanticModule N d).map EmittedModel.name).map
        (fun name => (pythonName N name).toList) =
      (endings modelVariants).map (N.nfkc (joined N d.nameSnake) ++ ·) := by
  have hpascal := toList_snakeToPascal (snakeWords hsnake) (isSnakeCase_ne_empty hsnake)
  have hcreate : N.nfkc (joined N d.nameSnake ++ "Create".toList) = _ :=
    N.nfkc_append _ _ fun c hc => (@isAsciiWord_spec N _ (by decide) c hc).1
  have hupdate : N.nfkc (joined N d.nameSnake ++ "Update".toList) = _ :=
    N.nfkc_append _ _ fun c hc => (@isAsciiWord_spec N _ (by decide) c hc).1
  rw [endings_modelVariants]
  simp only [emitPydanticModule, emitFullModel, emitWriteModel, List.map_cons,
    List.map_nil, pythonName, String.toList_ofList, String.toList_append, hpascal,
    List.append_nil, hcreate, hupdate]

theorem exportNames_nodup_iff
    (hsnake : ∀ d ∈ definitions, isSnakeCase N.toCharRules d.nameSnake = true) :
    (definitions.flatMap (emitZodModule N)).Nodup ↔ definitions.Pairwise fun d e =>
      Apart (Alike N) exportVariants d.nameSnake e.nameSnake := by
  have hperm : ((definitions.flatMap (emitZodModule N)).map String.toList).Perm
      (definitions.flatMap fun d =>
        (endings exportVariants).map (joined N d.nameSnake ++ ·)) := by
    rw [List.map_flatMap]
    exact List.Perm.flatMap_left _ fun d hd => emitZodModule_toList (hsnake d hd)
  rw [← List.nodup_map_iff fun _ _ h => String.toList_inj.mp h, hperm.nodup_iff,
    nodup_flatMap_suffixes (by decide)]
  simp only [← runTogether_joined.apart_iff]
  rfl

theorem classNames_nodup_iff
    (hsnake : ∀ d ∈ definitions, isSnakeCase N.toCharRules d.nameSnake = true) :
    (((pydanticExports N definitions).flatMap Prod.snd).map (pythonName N)).Nodup ↔
      definitions.Pairwise fun d e =>
        Apart (AlikeInPython N) modelVariants d.nameSnake e.nameSnake := by
  have hchars : (((pydanticExports N definitions).flatMap Prod.snd).map
      (pythonName N)).map String.toList = definitions.flatMap fun d =>
        (endings modelVariants).map (N.nfkc (joined N d.nameSnake) ++ ·) := by
    rw [pydanticExports, List.flatMap_map, List.map_map, List.map_flatMap]
    exact List.flatMap_congr fun d hd => pythonName_toList (hsnake d hd)
  rw [← List.nodup_map_iff fun _ _ h => String.toList_inj.mp h, hchars,
    nodup_flatMap_suffixes (by decide)]
  simp only [← runTogether_nfkc.apart_iff]
  rfl

/-! ### Usable names -/

theorem isIdentifier_pascal (hsnake : isSnakeCase N.toCharRules d.nameSnake = true)
    {suffix : String} (hsuffix : suffix ∈ ["", "Create", "Update"]) :
    isIdentifier N (snakeToPascal N d.nameSnake ++ suffix) =
      isIdentifier N d.nameSnake := by
  have hascii : ∀ suffix ∈ ["", "Create", "Update"], isAsciiWord suffix.toList = true := by
    decide
  have hall : suffix.toList.all N.identContinue = true := by
    rw [List.all_eq_true]
    exact fun c hc => (isAsciiWord_spec (hascii suffix hsuffix) c hc).2
  have hwords := snakeWords hsnake
  rcases headed_head hwords with ⟨c, s, hhead, _⟩
  have hne : joined N d.nameSnake ≠ [] := by simp [hhead]
  rw [isIdentifier, String.toList_append,
    toList_snakeToPascal hwords (isSnakeCase_ne_empty hsnake),
    isIdentifierText_append hne hall, isIdentifierText_headed hwords]

/-- The only keywords among the names in Pascal case are the three constants. -/
theorem pascal_not_keyword_iff
    (hsnake : isSnakeCase N.toCharRules d.nameSnake = true) :
    snakeToPascal N d.nameSnake ∉ pythonKeywords ↔
      ∀ constant ∈ ["false", "none", "true"], ¬ Alike N d.nameSnake constant := by
  have hwords := snakeWords hsnake
  have hpascal := toList_snakeToPascal hwords (isSnakeCase_ne_empty hsnake)
  have hascii : ∀ constant ∈ ["false", "none", "true"], ∀ w ∈ words constant,
      isAsciiWord w = true := by
    decide
  have hsplit : ∀ keyword ∈ pythonKeywords, keyword.toList.head?.any Char.isLower = true ∨
      ∃ constant ∈ ["false", "none", "true"],
        (words constant).flatMap headedAscii = keyword.toList := by
    decide
  have hconstant : ∀ constant ∈ ["false", "none", "true"], ∃ keyword ∈ pythonKeywords,
      keyword.toList = (words constant).flatMap headedAscii := by
    decide
  constructor
  · intro hfree constant hmem halike
    rcases hconstant constant hmem with ⟨keyword, hkeyword, hchars⟩
    apply hfree
    have hsame : snakeToPascal N d.nameSnake = keyword := by
      apply String.toList_inj.mp
      rw [hpascal, hchars, ← headed_ascii (hascii constant hmem)]
      exact halike
    rw [hsame]
    exact hkeyword
  · intro hnot hkeyword
    rcases hsplit _ hkeyword with hlower | ⟨constant, hmem, hchars⟩
    · rcases headed_head hwords with ⟨c, s, hhead, hcase⟩
      rw [hpascal, hhead] at hlower
      simp [hcase] at hlower
    · apply hnot constant hmem
      rw [Alike, ← hpascal, headed_ascii (hascii constant hmem), hchars]

theorem variant_not_keyword (name : String) {suffix : String}
    (hsuffix : suffix ∈ ["Create", "Update"]) : name ++ suffix ∉ pythonKeywords := by
  have hletter : ∀ suffix ∈ ["Create", "Update"], suffix.toList.any (fun c =>
      pythonKeywords.all fun keyword => decide (c ∉ keyword.toList)) = true := by
    decide
  intro hkeyword
  rcases List.any_eq_true.mp (hletter suffix hsuffix) with ⟨c, hc, hnot⟩
  have hfree := of_decide_eq_true (List.all_eq_true.mp hnot _ hkeyword)
  rw [String.toList_append] at hfree
  exact hfree (List.mem_append_right _ hc)

theorem classes_usable_iff (hsnake : isSnakeCase N.toCharRules d.nameSnake = true) :
    (∀ model ∈ emitPydanticModule N d, Usable N model.name) ↔
      isIdentifier N d.nameSnake = true ∧
        ∀ constant ∈ ["false", "none", "true"], ¬ Alike N d.nameSnake constant := by
  have hempty := @isIdentifier_pascal N d hsnake "" (by decide)
  rw [String.append_empty] at hempty
  rw [← pascal_not_keyword_iff hsnake, ← hempty]
  constructor
  · intro h
    have hfull := h _ (.head _)
    exact ⟨hfull.identifier, hfull.free⟩
  · intro h model hmodel
    simp only [emitPydanticModule, List.mem_cons, List.not_mem_nil, or_false] at hmodel
    rcases hmodel with rfl | rfl | rfl
    · exact ⟨h.1, h.2⟩
    · refine ⟨?_, variant_not_keyword _ (by decide)⟩
      exact (isIdentifier_pascal hsnake (by decide)).trans (hempty.symm.trans h.1)
    · refine ⟨?_, variant_not_keyword _ (by decide)⟩
      exact (isIdentifier_pascal hsnake (by decide)).trans (hempty.symm.trans h.1)

theorem systemFields_usable : ∀ field ∈ systemFields.map Prod.fst, Usable N field := by
  have hfields : ∀ field ∈ systemFields.map Prod.fst,
      isAsciiIdentifier field = true ∧ field ∉ pythonKeywords := by
    decide
  intro field hfield
  exact ⟨isIdentifier_ascii (hfields field hfield).1, (hfields field hfield).2⟩

theorem fields_usable_iff :
    (∀ model ∈ emitPydanticModule N d, ∀ field ∈ model.fields, Usable N field) ↔
      ∀ a ∈ d.attributes, Usable N a.nameSnake := by
  constructor
  · intro h a ha
    apply h _ (.head _)
    exact List.mem_append_right _ (List.mem_map.mpr ⟨a, ha, rfl⟩)
  · intro h
    have hwritable : ∀ field ∈ d.writable.map AttributeDefinition.nameSnake,
        Usable N field := by
      intro field hfield
      rcases List.mem_map.mp hfield with ⟨a, ha, rfl⟩
      exact h a (List.mem_filter.mp ha).1
    intro model hmodel field hfield
    simp only [emitPydanticModule, List.mem_cons, List.not_mem_nil, or_false] at hmodel
    rcases hmodel with rfl | rfl | rfl
    · rcases List.mem_append.mp hfield with hsystem | hattribute
      · exact systemFields_usable field hsystem
      · rcases List.mem_map.mp hattribute with ⟨a, ha, rfl⟩
        exact h a ha
    · exact hwritable field hfield
    · exact hwritable field hfield

/-! ### The files and the barrel modules -/

/-- What is written later counts. -/
theorem byName_append {α : Type} {files later : List (String × α)} {path : String} :
    byName (files ++ later) path = (byName later path).or (byName files path) := by
  unfold byName
  rw [List.reverse_append, List.find?_append]

theorem byName_of_mem {α : Type} {entries : List (String × α)} {key : String} {value : α}
    (hnodup : (entries.map Prod.fst).Nodup) (hmem : (key, value) ∈ entries) :
    byName entries key = some (key, value) :=
  (NamesAgree.of_nodup hnodup).byName hmem

/-- One module a class, and nothing later is written in its place. -/
theorem byName_module {α : Type} {extension : String} {content : ClassDefinition → α}
    {later : List (String × α)} (hstems : (definitions.map ClassDefinition.nameSnake).Nodup)
    (hd : d ∈ definitions) (hlater : d.nameSnake ++ extension ∉ later.map Prod.fst) :
    byName ((definitions.map fun d => (d.nameSnake ++ extension, content d)) ++ later)
      (d.nameSnake ++ extension) = some (d.nameSnake ++ extension, content d) := by
  have hnone : byName later (d.nameSnake ++ extension) = none := byName_eq_none.mpr hlater
  have hpaths : ((definitions.map fun d =>
      (d.nameSnake ++ extension, content d)).map Prod.fst).Nodup := by
    have hmap : (definitions.map fun d => (d.nameSnake ++ extension, content d)).map Prod.fst =
        (definitions.map ClassDefinition.nameSnake).map (· ++ extension) := by
      rw [List.map_map, List.map_map]
      rfl
    rw [hmap]
    exact hstems.map fun _ _ h => (String.append_left_inj _).mp h
  rw [byName_append, hnone, Option.none_or]
  exact byName_of_mem hpaths (List.mem_map.mpr ⟨d, hd, rfl⟩)

theorem zodFiles_eq : zodFiles N definitions =
    (definitions.map fun d => (d.nameSnake ++ ".ts", ZodFile.models (emitZodModule N d))) ++
      [("index.ts", .barrel (definitions.map ClassDefinition.nameSnake)),
        ("field_meta.ts", .fieldMeta), ("well_known.ts", .wellKnown)] := by
  rw [zodFiles, writeZodModels, List.append_assoc]
  rfl

theorem pythonFiles_eq : pythonFiles N definitions =
    (definitions.map fun d =>
      (d.nameSnake ++ ".py", PythonFile.models (emitPydanticModule N d))) ++
      [("__init__.py", .barrel (pydanticExports N definitions)),
        ("well_known.py", .wellKnown)] := by
  rw [pythonFiles, writePydanticModels, List.append_assoc]
  rfl

theorem mem_zodBarrel {name path : String} :
    (name, path) ∈ zodBarrel (zodFiles N definitions) ↔ ∃ d ∈ definitions,
      name ∈ moduleExports (zodFiles N definitions) d.nameSnake ∧
        d.nameSnake ++ ".ts" = path := by
  have hindex : byName (zodFiles N definitions) "index.ts" =
      some ("index.ts", .barrel (definitions.map ClassDefinition.nameSnake)) := by
    rw [zodFiles_eq, byName_append]
    rfl
  rw [zodBarrel, hindex]
  simp

/-- What the generator writes over exports no model. -/
theorem moduleExports_taken {stem : String} (hstem : stem ∈ takenStems) :
    moduleExports (zodFiles N definitions) stem = [] := by
  have hpaths : takenStems.map (· ++ ".ts") =
      ["index.ts", "field_meta.ts", "well_known.ts"] := by
    decide
  have hpath : stem ++ ".ts" ∈ ["index.ts", "field_meta.ts", "well_known.ts"] := by
    rw [← hpaths]
    exact List.mem_map.mpr ⟨stem, hstem, rfl⟩
  simp only [List.mem_cons, List.not_mem_nil, or_false] at hpath
  unfold moduleExports
  rw [zodFiles_eq, byName_append]
  rcases hpath with hpath | hpath | hpath
  · rw [hpath]
    rfl
  · rw [hpath]
    rfl
  · rw [hpath]
    rfl

theorem moduleExports_own (hstems : (definitions.map ClassDefinition.nameSnake).Nodup)
    (hd : d ∈ definitions) (hfree : d.nameSnake ∉ takenStems) :
    moduleExports (zodFiles N definitions) d.nameSnake = emitZodModule N d := by
  have hpaths : takenStems.map (· ++ ".ts") =
      ["index.ts", "field_meta.ts", "well_known.ts"] := by
    decide
  have hlater : d.nameSnake ++ ".ts" ∉ ["index.ts", "field_meta.ts", "well_known.ts"] := by
    rw [← hpaths]
    intro hmem
    rcases List.mem_map.mp hmem with ⟨stem, hstem, heq⟩
    rw [(String.append_left_inj _).mp heq] at hstem
    exact hfree hstem
  rw [moduleExports, zodFiles_eq, byName_module hstems hd hlater]

/-- The TypeScript barrel exports every model from its own file if the names are
distinct and no file is written over. -/
theorem exported_of_nodup (hstems : (definitions.map ClassDefinition.nameSnake).Nodup)
    (hfree : ∀ d ∈ definitions, d.nameSnake ∉ takenStems)
    (hnodup : (definitions.flatMap (emitZodModule N)).Nodup) (hd : d ∈ definitions)
    {name : String} (hname : name ∈ emitZodModule N d) :
    Exported (zodFiles N definitions) name (d.nameSnake ++ ".ts") := by
  constructor
  · apply mem_zodBarrel.mpr
    rw [← moduleExports_own hstems hd (hfree d hd)] at hname
    exact ⟨d, hd, hname, rfl⟩
  · intro other hother
    rcases mem_zodBarrel.mp hother with ⟨e, he, hname', rfl⟩
    rw [moduleExports_own hstems he (hfree e he)] at hname'
    have hpairwise := (List.nodup_flatMap.mp hnodup).2
    have hsymm : Std.Symm (Function.onFun List.Disjoint (emitZodModule N)) :=
      ⟨fun _ _ h => h.symm⟩
    by_cases hsame : e = d
    · rw [hsame]
    · exact absurd hname (hpairwise.forall he hd hsame hname')

theorem free_of_exported
    (hexported : ∀ name ∈ emitZodModule N d,
      Exported (zodFiles N definitions) name (d.nameSnake ++ ".ts")) :
    d.nameSnake ∉ takenStems := by
  intro htaken
  rcases mem_zodBarrel.mp (hexported _ (.head _)).1 with ⟨e, _, hname, hpath⟩
  rw [(String.append_left_inj _).mp hpath, moduleExports_taken htaken] at hname
  cases hname

/-! ### What Python imports -/

theorem pythonName_pythonName (name : String) :
    pythonName N (pythonName N name) = pythonName N name := by
  rw [pythonName, pythonName, String.toList_ofList, N.nfkc_nfkc]

theorem importName_path {files : List (String × PythonFile)} {stem name bound path : String}
    {model : EmittedModel} (h : importName N files stem name = .ok (bound, path, model)) :
    path = pythonName N stem ++ ".py" := by
  unfold importName at h
  split at h
  · rename_i hfile
    split at h
    · cases h
      exact (byName_some hfile).2
    · cases h
  · cases h
  · cases h

theorem pythonBarrel_eq : pythonBarrel N (pythonFiles N definitions) =
    ((pydanticExports N definitions).flatMap fun e => e.2.map (e.1, ·)).mapM fun e =>
      importName N (pythonFiles N definitions) e.1 e.2 := by
  have hinit : byName (pythonFiles N definitions) "__init__.py" =
      some ("__init__.py", .barrel (pydanticExports N definitions)) := by
    rw [pythonFiles_eq, byName_append]
    rfl
  rw [pythonBarrel, hinit]

/-- A stem that Python finds is in normal form. -/
theorem normal_of_pythonBarrel {bound : List (String × String × EmittedModel)}
    (hbarrel : pythonBarrel N (pythonFiles N definitions) = .ok bound) {name : String}
    {model : EmittedModel} (hbound : (name, d.nameSnake ++ ".py", model) ∈ bound) :
    pythonName N d.nameSnake = d.nameSnake := by
  rw [pythonBarrel_eq] at hbarrel
  rcases mapM_eq_ok hbarrel _ hbound with ⟨imported, _, himport⟩
  have hstem := (String.append_left_inj _).mp (importName_path himport)
  rw [hstem, pythonName_pythonName]

/-- Each class of the set with its models. -/
def emitted (N : NameRules) (definitions : List ClassDefinition) :
    List (ClassDefinition × EmittedModel) :=
  definitions.flatMap fun d => (emitPydanticModule N d).map (d, ·)

theorem mem_emitted {e : ClassDefinition × EmittedModel} :
    e ∈ emitted N definitions ↔ e.1 ∈ definitions ∧ e.2 ∈ emitPydanticModule N e.1 := by
  cases e with
  | mk d model =>
      simp [emitted]

theorem emitted_names : (emitted N definitions).map (fun e => pythonName N e.2.name) =
    ((pydanticExports N definitions).flatMap Prod.snd).map (pythonName N) := by
  rw [emitted, pydanticExports, List.flatMap_map, List.map_flatMap, List.map_flatMap]
  rfl

theorem emitted_imports : (pydanticExports N definitions).flatMap (fun e => e.2.map (e.1, ·)) =
    (emitted N definitions).map fun e => (e.1.nameSnake, e.2.name) := by
  rw [emitted, pydanticExports, List.flatMap_map, List.map_flatMap]
  rfl

theorem importName_own (hstems : (definitions.map ClassDefinition.nameSnake).Nodup)
    (hsnake : isSnakeCase N.toCharRules d.nameSnake = true)
    (hnormal : pythonName N d.nameSnake = d.nameSnake) (hfree : d.nameSnake ∉ takenStems)
    (hnames : ((emitPydanticModule N d).map fun model => pythonName N model.name).Nodup)
    (hd : d ∈ definitions) {model : EmittedModel} (hmodel : model ∈ emitPydanticModule N d) :
    importName N (pythonFiles N definitions) d.nameSnake model.name =
      .ok (pythonName N model.name, d.nameSnake ++ ".py", model) := by
  have hlater : d.nameSnake ++ ".py" ∉ ["__init__.py", "well_known.py"] := by
    intro hmem
    rcases List.mem_cons.mp hmem with hinit | hmem
    · have hname : d.nameSnake = "__init__" :=
        (String.append_left_inj ".py").mp hinit
      have hempty : [] ∈ words d.nameSnake := by
        rw [hname]
        decide
      exact (snakeWords hsnake).nonempty [] hempty rfl
    · have hname : d.nameSnake = "well_known" :=
        (String.append_left_inj ".py").mp (List.mem_singleton.mp hmem)
      apply hfree
      rw [hname]
      decide
  have hclass : byName ((emitPydanticModule N d).map fun model =>
      (pythonName N model.name, model)) (pythonName N model.name) = _ :=
    byName_of_mem (by rwa [List.map_map]) (List.mem_map.mpr ⟨model, hmodel, rfl⟩)
  rw [importName, hnormal, pythonFiles_eq, byName_module hstems hd hlater]
  simp only [hclass]

theorem mapM_eq_ok_map {ε α β : Type} {f : α → Except ε β} {g : α → β} {items : List α}
    (h : ∀ a ∈ items, f a = .ok (g a)) : items.mapM f = .ok (items.map g) := by
  induction items with
  | nil => rfl
  | cons a items ih =>
      rw [List.mapM_cons, h a (.head _), ih fun b hb => h b (.tail _ hb)]
      rfl

/-- The Python barrel binds every model from its own file. -/
theorem pythonBarrel_of_nodup
    (hstems : (definitions.map ClassDefinition.nameSnake).Nodup)
    (hsnake : ∀ d ∈ definitions, isSnakeCase N.toCharRules d.nameSnake = true)
    (hnormal : ∀ d ∈ definitions, pythonName N d.nameSnake = d.nameSnake)
    (hfree : ∀ d ∈ definitions, d.nameSnake ∉ takenStems)
    (hnodup : (((pydanticExports N definitions).flatMap Prod.snd).map (pythonName N)).Nodup) :
    ∃ bound, pythonBarrel N (pythonFiles N definitions) = .ok bound ∧
      ∀ d ∈ definitions, ∀ model ∈ emitPydanticModule N d,
        byName bound (pythonName N model.name) =
          some (pythonName N model.name, d.nameSnake ++ ".py", model) := by
  rw [← emitted_names] at hnodup
  have hown : ∀ e ∈ emitted N definitions,
      importName N (pythonFiles N definitions) e.1.nameSnake e.2.name =
        .ok (pythonName N e.2.name, e.1.nameSnake ++ ".py", e.2) := by
    intro e he
    have hmem := mem_emitted.mp he
    apply importName_own hstems (hsnake _ hmem.1) (hnormal _ hmem.1) (hfree _ hmem.1)
      _ hmem.1 hmem.2
    have hpart := (List.nodup_flatMap.mp
      (show (definitions.flatMap fun d => (emitPydanticModule N d).map fun model =>
        pythonName N model.name).Nodup by
          rw [emitted, List.map_flatMap] at hnodup
          exact hnodup)).1
    exact hpart _ hmem.1
  refine ⟨(emitted N definitions).map fun e =>
    (pythonName N e.2.name, e.1.nameSnake ++ ".py", e.2), ?_, ?_⟩
  · rw [pythonBarrel_eq, emitted_imports, List.mapM_map]
    exact mapM_eq_ok_map hown
  · intro d hd model hmodel
    apply byName_of_mem
    · rw [List.map_map]
      exact hnodup
    · exact List.mem_map.mpr ⟨(d, model), mem_emitted.mpr ⟨hd, hmodel⟩, rfl⟩

end Emitted

/-! ## Sample sets -/

/-- The case tables on ASCII. -/
def asciiCases : CaseTables where
  title c := [c.toUpper]
  lowerChar c := [c.toLower]
  isCased := Char.isAlpha
  isCaseIgnorable c := c.toNat ∈ [39, 46, 58, 94, 96]
  lowerChar_ne_nil _ := List.cons_ne_nil _ _

theorem underscore_of_lowerFrom {before s : List Char}
    (h : '_' ∈ asciiCases.lowerFrom before s) : '_' ∈ s := by
  induction s generalizing before with
  | nil => cases h
  | cons c s ih =>
      rcases List.mem_append.mp h with hhead | htail
      · unfold CaseTables.lowerAt at hhead
        by_cases hsigma : c = 'Σ'
        · rw [if_pos hsigma, List.mem_singleton] at hhead
          split at hhead
          · exact absurd hhead (by decide)
          · exact absurd hhead (by decide)
        · rw [if_neg hsigma] at hhead
          have hlower := toLower_eq_underscore (List.mem_singleton.mp hhead).symm
          rw [hlower]
          exact .head _
      · exact .tail _ (ih htail)

theorem asciiCases_underscore (s : String)
    (h : '_' ∈ (String.ofList (asciiCases.lowerText s.toList)).toList) :
    '_' ∈ s.toList := by
  rw [String.toList_ofList] at h
  exact underscore_of_lowerFrom h

/-- A character without an upper case keeps to itself. -/
theorem toUpper_of_not_isAlpha {c : Char} (h : c.isAlpha = false) : c.toUpper = c := by
  apply Char.toUpper_eq_of_not_isLower
  intro hlower
  simp [Char.isAlpha, hlower] at h

def asciiNames : NameRules where
  nfkc := id
  nfkc_nfkc _ := rfl
  nfkc_append _ _ _ := rfl
  toScalars := { asciiScalars with
    lower := fun s => String.ofList (asciiCases.lowerText s.toList)
    underscore_of_lower := asciiCases_underscore }
  toCaseTables := asciiCases
  identStart c := c.isAlpha || c = '_'
  identContinue c := c.isAlphanum || c = '_'
  lower_eq _ := rfl
  start_continue := by
    intro c h
    simp only [Bool.or_eq_true] at h ⊢
    rcases h with halpha | hunderscore
    · exact Or.inl (by simp [Char.isAlphanum, halpha])
    · exact Or.inr hunderscore
  start_ascii _ _ := rfl
  continue_ascii _ _ := rfl
  title_ascii _ _ := rfl
  title_start := by
    intro c _ _
    refine ⟨c.toUpper, [], rfl, ?_, Char.isLower_toUpper_eq_false c⟩
    cases halpha : c.isAlpha with
    | true => simp [Char.isAlpha_toUpper_eq_isAlpha, halpha]
    | false => rw [toUpper_of_not_isAlpha halpha, halpha]
  title_continue := by
    intro c _ _
    rw [show asciiCases.title c = [c.toUpper] from rfl, List.all_cons, List.all_nil]
    cases halpha : c.isAlpha with
    | true => simp [Char.isAlphanum, Char.isAlpha_toUpper_eq_isAlpha, halpha]
    | false => rw [toUpper_of_not_isAlpha halpha, Bool.and_true]

end Untangled.Mapping
