import Mathlib
import Untangled.FriendlyIds
import Untangled.GeneratedNames
import Untangled.SchemaDiffPhases

/-!
# Sequence starts

`resolve_sequence_starts` of `sequences.py`: a sequence without a start begins after
the highest number that the column already holds behind the prefix.  With it,
what is promised of friendly ids: they differ, they are found, and a new sequence
gives none that is already there.
-/

namespace Untangled.Mapping

open PythonText Records PaddedNumerals Schema

/-! ## Starts from data -/

/-- A column of a table in the database; values are only read from text. -/
inductive LiveColumn
  | missing
  | texts (values : List (Option String))
  | other

def LiveColumn.values : LiveColumn → List String
  | .texts values => values.reduceOption
  | _ => []

abbrev LiveData := String → String → LiveColumn

def maxBigint : ℕ := 9223372036854775807

/-- `^prefix[0-9]+$`; an alphanumeric prefix has no special characters. -/
def matchesPrefix (p v : String) : Bool :=
  let body := v.toList.drop p.length
  p.toList <+: v.toList && body ≠ [] && body.all Char.isDigit

/-- `CAST(substring(...) AS bigint)` -/
def castBigint (digits : List Char) : Except String ℕ :=
  if value digits ≤ maxBigint then pure (value digits) else throw "bigint out of range"

def maxNumericPlusOne (live : LiveData) (tableName columnName idPrefix : String) :
    Except String ℕ :=
  if tableName = "" ∨ columnName = "" ∨ idPrefix = "" then pure 1
  else
    match live tableName columnName with
    | .missing => pure 1
    | .other => throw "operator does not exist"
    | .texts values => do
        let numbers ← (values.reduceOption.filter (matchesPrefix idPrefix)).mapM fun v =>
          castBigint (v.toList.drop idPrefix.length)
        pure (numbers.max?.elim 1 (· + 1))

def resolveSequence (live : LiveData) (s : SequenceIR) : Except String SequenceIR :=
  if s.resolveStartFromData then do
    let start ← maxNumericPlusOne live s.tableName s.columnName s.idPrefix
    pure { s with start := start, resolveStartFromData := false }
  else pure s

def resolveSequenceStarts (live : LiveData) (desired : SchemaIR) :
    Except String SchemaIR := do
  let sequences ← desired.sequences.mapM (resolveSequence live)
  pure ⟨desired.tables, sequences⟩

/-- The plan of `migrate`. -/
def migrationPlan (live : LiveData) (desired current : SchemaIR)
    (defaults : ColumnAddDefaults) : Except String MigrationPlan := do
  let resolved ← resolveSequenceStarts live desired
  pure (diffSchemas resolved current defaults)

/-- What a created sequence gives after `k` calls; at the end it fails. -/
def nextval (s : SequenceIR) (k : ℕ) : Option ℕ :=
  if s.start + k ≤ maxBigint then some (s.start + k).toNat else none

/-! ## Above every number -/

theorem maxNumericPlusOne_above
    {live : LiveData} {tableName columnName idPrefix : String} {start : ℕ}
    (htable : tableName ≠ "") (hcolumn : columnName ≠ "") (hlead : idPrefix ≠ "")
    (h : maxNumericPlusOne live tableName columnName idPrefix = .ok start) :
    ∀ v ∈ (live tableName columnName).values, matchesPrefix idPrefix v = true →
      value (v.toList.drop idPrefix.length) < start := by
  intro v hv hmatches
  unfold maxNumericPlusOne at h
  rw [if_neg (by simp [htable, hcolumn, hlead])] at h
  cases hlive : live tableName columnName with
  | missing =>
      rw [hlive] at hv
      cases hv
  | other =>
      rw [hlive] at h
      cases h
  | texts values =>
      rw [hlive] at h hv
      rcases bind_eq_ok.mp h with ⟨numbers, hnumbers, h⟩
      cases h
      have hfilter : v ∈ values.reduceOption.filter (matchesPrefix idPrefix) :=
        List.mem_filter.mpr ⟨hv, hmatches⟩
      have hnumber : value (v.toList.drop idPrefix.length) ∈ numbers := by
        rcases exists_of_mem_forall₂ (mapM_ok_forall₂ hnumbers).flip hfilter with ⟨n, hn, hcast⟩
        unfold castBigint at hcast
        by_cases hbig : value (v.toList.drop idPrefix.length) ≤ maxBigint
        · rw [if_pos hbig] at hcast
          cases hcast
          exact hn
        · rw [if_neg hbig] at hcast
          cases hcast
      have hle := List.le_max?_getD_of_mem (k := 0) hnumber
      cases hmax : numbers.max? with
      | none =>
          rw [List.max?_eq_none_iff] at hmax
          rw [hmax] at hnumber
          cases hnumber
      | some m =>
          rw [hmax, Option.getD_some] at hle
          simp only [Option.elim_some]
          omega

theorem matchesPrefix_formatFriendlyId (p : String) (n : ℕ) (w : ℤ) :
    matchesPrefix p (formatFriendlyId p n w) = true ∧
      value ((formatFriendlyId p n w).toList.drop p.length) = n := by
  have hbody : (formatFriendlyId p n w).toList.drop p.length = padded w.toNat n := by
    rw [formatFriendlyId_toList, ← String.length_toList, List.drop_left]
  have hlead : p.toList <+: (formatFriendlyId p n w).toList := by
    rw [formatFriendlyId_toList]
    exact List.prefix_append _ _
  have hdigits : (padded w.toNat n).all Char.isDigit = true :=
    List.all_eq_true.mpr fun c hc => isDigit_of_mem_padded hc
  constructor
  · unfold matchesPrefix
    dsimp only
    rw [hbody, hdigits, decide_eq_true hlead, decide_eq_true (padded_ne_nil _ _)]
    rfl
  · rw [hbody, value_padded]

/-- A number from the start on is in no value of the column. -/
theorem formatFriendlyId_fresh
    {live : LiveData} {tableName columnName idPrefix : String} {start n : ℕ} {w : ℤ}
    (htable : tableName ≠ "") (hcolumn : columnName ≠ "") (hlead : idPrefix ≠ "")
    (h : maxNumericPlusOne live tableName columnName idPrefix = .ok start)
    (hn : start ≤ n) :
    formatFriendlyId idPrefix n w ∉ (live tableName columnName).values := by
  intro hmem
  have hmatches := matchesPrefix_formatFriendlyId idPrefix n w
  have hbelow := maxNumericPlusOne_above htable hcolumn hlead h _ hmem hmatches.1
  rw [hmatches.2] at hbelow
  omega

/-! ## The sequences of a plan -/

theorem resolveSequence_name
    {live : LiveData} {s s' : SequenceIR}
    (h : resolveSequence live s = .ok s') :
    s'.name = s.name := by
  unfold resolveSequence at h
  by_cases hresolve : s.resolveStartFromData = true
  · rw [if_pos hresolve] at h
    rcases bind_eq_ok.mp h with ⟨start, _, h⟩
    cases h
    rfl
  · rw [if_neg hresolve] at h
    cases h
    rfl

/-- A sequence that a plan creates comes from the definitions. -/
theorem createSequence_of_plan
    {live : LiveData} {desired current : SchemaIR} {defaults : ColumnAddDefaults}
    {plan : MigrationPlan} {s : SequenceIR}
    (hplan : migrationPlan live desired current defaults = .ok plan)
    (hs : .createSequence s ∈ plan) :
    ∃ s₀ ∈ desired.sequences, resolveSequence live s₀ = .ok s := by
  unfold migrationPlan at hplan
  rcases bind_eq_ok.mp hplan with ⟨resolved, hresolved, hplan⟩
  unfold resolveSequenceStarts at hresolved
  rcases bind_eq_ok.mp hresolved with ⟨sequences, hsequences, hresolved⟩
  cases hresolved
  rw [← Except.ok.inj hplan, diffSchemas_eq, List.mem_append] at hs
  rcases hs with hteardown | hbuildup
  · cases takesDown_of_mem_teardown hteardown
  · have hname := (createSequence_mem_buildup.mp hbuildup).1
    exact mapM_eq_ok hsequences s (byName_some hname).1

section Classes

variable {R : Scalars} {definitions : List ClassDefinition} {d : ClassDefinition}
  {a : AttributeDefinition}

theorem friendlyIdAttr_spec
    (hvalid : ValidSet R definitions) (hd : d ∈ definitions)
    (ha : d.friendlyIdAttr = some a) :
    a ∈ d.attributes ∧ ∃ p, a.idPrefix = some p ∧ R.isAlnumText p = true := by
  have hmem := List.mem_of_find?_eq_some ha
  have htype : a.typeName = "friendly_id" := by
    simpa using List.find?_some ha
  exact ⟨hmem, ((hvalid.classes d hd).attributes.each a hmem).friendly htype⟩

/-- The sequence with the name of a class's is the class's. -/
theorem sequence_of_name
    (hvalid : ValidSet R definitions) {desired : SchemaIR}
    (hdesired : DesiredOf R.toCharRules definitions desired) (hd : d ∈ definitions)
    (ha : d.friendlyIdAttr = some a) {p : String} (hp : a.idPrefix = some p)
    {s : SequenceIR} (hs : s ∈ desired.sequences)
    (hname : s.name = friendlyIdSequenceName R.toCharRules p) :
    s.tableName = d.nameSnake ∧ s.columnName = a.nameSnake ∧ s.idPrefix = p ∧
      s.resolveStartFromData = a.startAt.isNone := by
  have hown : sequenceFromDefinition R.toCharRules d = some {
      name := friendlyIdSequenceName R.toCharRules p
      start := a.startAt.getD 1
      tableName := d.nameSnake
      columnName := a.nameSnake
      idPrefix := p
      resolveStartFromData := a.startAt.isNone } := by
    rw [sequenceFromDefinition, ha, Option.bind_some, hp]
    rfl
  have hmem := List.mem_filterMap.mpr ⟨d, hd, hown⟩
  rw [← mem_sortedByName, ← hdesired.sequences] at hmem
  have hnodup := sequenceNames_nodup hvalid hdesired
  have heq := List.inj_on_of_nodup_map hnodup hs hmem hname
  rw [heq]
  exact ⟨rfl, rfl, rfl, rfl⟩

/-- What a new sequence gives is not in the column. -/
theorem sequence_fresh
    (hvalid : ValidSet R definitions)
    (hsnake : ∀ d ∈ definitions, SnakeNames R.toCharRules d)
    (hd : d ∈ definitions) (ha : d.friendlyIdAttr = some a) {p : String}
    (hp : a.idPrefix = some p) (hstart : a.startAt = none)
    {live : LiveData} {desired current : SchemaIR} {defaults : ColumnAddDefaults}
    {plan : MigrationPlan} {s : SequenceIR} {k n : ℕ}
    (hdesired : DesiredOf R.toCharRules definitions desired)
    (hplan : migrationPlan live desired current defaults = .ok plan)
    (hs : .createSequence s ∈ plan)
    (hname : s.name = friendlyIdSequenceName R.toCharRules p)
    (hnext : nextval s k = some n) :
    formatFriendlyId p n a.padWidth ∉ (live d.nameSnake a.nameSnake).values := by
  rcases createSequence_of_plan hplan hs with ⟨s₀, hs₀, hresolve⟩
  have hname₀ := (resolveSequence_name hresolve).symm.trans hname
  rcases sequence_of_name hvalid hdesired hd ha hp hs₀ hname₀ with
    ⟨htable, hcolumn, hlead, hdata⟩
  have hspec := friendlyIdAttr_spec hvalid hd ha
  have hne : p ≠ "" := by
    rcases hspec.2 with ⟨p', hp', halnum⟩
    rw [hp] at hp'
    cases hp'
    simp only [CharRules.isAlnumText, Bool.and_eq_true, decide_eq_true_eq] at halnum
    exact halnum.1
  unfold resolveSequence at hresolve
  rw [hdata, hstart, Option.isNone_none, if_pos rfl, htable, hcolumn, hlead] at hresolve
  rcases bind_eq_ok.mp hresolve with ⟨start, hmax, hresolve⟩
  cases hresolve
  unfold nextval at hnext
  dsimp only at hnext
  by_cases hbig : (start : ℤ) + k ≤ maxBigint
  · rw [if_pos hbig, Option.some.injEq] at hnext
    apply formatFriendlyId_fresh (isSnakeCase_ne_empty (hsnake d hd).ofClass)
      (isSnakeCase_ne_empty ((hsnake d hd).ofAttributes a hspec.1)) hne hmax
    omega
  · rw [if_neg hbig] at hnext
    cases hnext

end Classes

/-! ## Friendly ids -/

/-- The ids of a class differ, an id is found as a friendly id unless it reads as a
UUID, and a sequence that starts after the data repeats none of its values. -/
theorem friendly_ids_resolve
    (L : LocatorRules) {directory : Option (List DefinitionFile)}
    {definitions : List ClassDefinition} {d : ClassDefinition} {a : AttributeDefinition}
    (hload : loadDefinitions L.toScalars directory = .ok definitions)
    (hd : d ∈ definitions) (ha : d.friendlyIdAttr = some a) :
    ∃ p, a.idPrefix = some p ∧
      Function.Injective (fun n => formatFriendlyId p n a.padWidth) ∧
      (∀ n, 1 ≤ n →
        (classifyLocator L d (formatFriendlyId p n a.padWidth) =
            .ok (.friendly (formatFriendlyId p n a.padWidth)) ↔
          ¬ReadsAsUuid L p n a.padWidth)) ∧
      (a.startAt = none → ∀ live desired current defaults plan s,
        desiredSchemaFromClasses L.toCharRules definitions = .ok desired →
        migrationPlan live desired current defaults = .ok plan →
        .createSequence s ∈ plan → s.name = friendlyIdSequenceName L.toCharRules p →
        ∀ k n, nextval s k = some n →
          formatFriendlyId p n a.padWidth ∉ (live d.nameSnake a.nameSnake).values) := by
  have hvalid := loadDefinitions_valid hload
  rcases (friendlyIdAttr_spec hvalid hd ha).2 with ⟨p, hp, halnum⟩
  refine ⟨p, hp, formatFriendlyId_injective p _, ?_, ?_⟩
  · intro n _
    exact classify_formatFriendlyId L ha hp halnum n _
  · intro hstart live desired current defaults plan s hdesired hplan hs hname k n hnext
    exact sequence_fresh hvalid (loadDefinitions_snake hload) hd ha hp hstart
      (desiredSchemaFromClasses_spec hdesired) hplan hs hname hnext

/-! ## A prefix of hexadecimal digits -/

theorem isSpace_of_isAlphanum
    {c : Char}
    (hc : c.isAlphanum = true) :
    isSpace c = false := by
  have hrange : 48 ≤ c.toNat ∧ c.toNat ≤ 122 := by
    simp only [Char.isAlphanum, Char.isAlpha, Char.isUpper, Char.isLower, Char.isDigit,
      Bool.or_eq_true, Bool.and_eq_true, decide_eq_true_eq, ge_iff_le,
      UInt32.le_iff_toNat_le] at hc
    simp at hc
    omega
  simp only [isSpace, Bool.or_eq_false_iff, Bool.and_eq_false_iff, decide_eq_false_iff_not]
  omega

/-- The tables of characters on ASCII. -/
def asciiLocators : LocatorRules where
  toScalars := asciiScalars
  isDigit := Char.isDigit
  decimalDigit _ := none
  repr s := "'" ++ s ++ "'"
  alnum_ascii _ _ := rfl
  alnum_space := by
    intro c hc
    rw [Bool.eq_false_iff]
    intro halnum
    rw [isSpace_of_isAlphanum halnum] at hc
    cases hc
  isDigit_ascii _ h := h
  decimalDigit_lt := by
    intro c d h
    cases h

def ticketFile (padWidth : ℤ) : DefinitionFile :=
  ⟨"ticket.yaml", some (.map [(.str "name", .str "ticket"),
    (.str "display_name", .str "Ticket"), (.str "description", .str "A ticket"),
    (.str "attributes", .map [(.str "number", .map [(.str "type", .str "friendly_id"),
      (.str "prefix", .str "A"), (.str "pad_width", .int padWidth)])])])⟩

def ticketNumber (padWidth : ℤ) : AttributeDefinition :=
  ⟨"number", "friendly_id", false, none, true, none, none, none, some "A", padWidth, none⟩

def ticketClass (padWidth : ℤ) : ClassDefinition :=
  ⟨"ticket", "Ticket", "A ticket", [ticketNumber padWidth], "ticket.yaml", none, false,
    [], [], []⟩

def ticketSet : List ClassDefinition := [ticketClass 8, plainClass "user" []]

/-- A ticket, a row without a number and one with another prefix. -/
def ticketLive : LiveData := fun tableName columnName =>
  if tableName = "ticket" ∧ columnName = "number" then
    .texts [some "A00000041", none, some "B7"]
  else .missing

def ticketDesired : SchemaIR where
  tables := ((ticketSet.mapM tableFromDefinition).toOption).getD []
  sequences := [⟨"friendly_id_a", 1, "ticket", "number", "A", true⟩]

def ticketStart : SequenceIR := ⟨"friendly_id_a", 42, "ticket", "number", "A", false⟩

def ticketPlan : MigrationPlan :=
  diffSchemas ⟨ticketDesired.tables, [ticketStart]⟩ ⟨[], []⟩ fun _ _ => none

set_option maxRecDepth 4000 in
theorem ticket_ids_resolve :
    ∃ p, (ticketNumber 8).idPrefix = some p ∧
      Function.Injective (fun n => formatFriendlyId p n 8) ∧
      (∀ n, 1 ≤ n →
        (classifyLocator asciiLocators (ticketClass 8) (formatFriendlyId p n 8) =
            .ok (.friendly (formatFriendlyId p n 8)) ↔
          ¬ReadsAsUuid asciiLocators p n 8)) ∧
      ∀ k n, nextval ticketStart k = some n →
        formatFriendlyId p n 8 ∉ (ticketLive "ticket" "number").values := by
  have h := friendly_ids_resolve asciiLocators
    (show loadDefinitions asciiScalars (some [ticketFile 8, classFile "user" []]) =
      .ok ticketSet from rfl) (.head _) rfl
  rcases h with ⟨p, hp, hinjective, hclassify, hfresh⟩
  refine ⟨p, hp, hinjective, hclassify, ?_⟩
  cases hp
  intro k n hnext
  exact hfresh rfl ticketLive ticketDesired ⟨[], []⟩ (fun _ _ => none) ticketPlan ticketStart
    rfl (by decide +kernel) (by decide +kernel) (by decide +kernel) k n hnext

set_option maxRecDepth 4000 in
/-- With 31 digits behind the prefix `A` the first id is a UUID. -/
theorem ticket_id_reads_as_uuid :
    loadDefinitions asciiScalars (some [ticketFile 31]) = .ok [ticketClass 31] ∧
      formatFriendlyId "A" 1 31 = "A0000000000000000000000000000001" ∧
      classifyLocator asciiLocators (ticketClass 31) (formatFriendlyId "A" 1 31) =
        .ok (.id 0xA0000000000000000000000000000001) :=
  ⟨rfl, by decide +kernel, by decide +kernel⟩

end Untangled.Mapping
